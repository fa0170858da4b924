import Qrack.Index

set_option autoImplicit false

namespace Qrack

/-- Modelled from the spec: the amplitude store `StateVectorArray` with `size` amplitudes allocated, and
below it its `read`, `write` and `write2`. The function is total so that an access past `size`, which the
code never guards against, stays visible in the model. -/
@[ext] structure StateVector where
  size : Nat
  amp : Nat → ℂ

namespace StateVector

-- `AllocStateVec(elemCount)`. Every caller clears or overwrites the whole buffer before reading it.
def alloc (elemCount : Nat) : StateVector := ⟨elemCount, fun _ => 0⟩

def read (v : StateVector) (i : Nat) : ℂ := v.amp i

def write (v : StateVector) (i : Nat) (a : ℂ) : StateVector := { v with amp := Function.update v.amp i a }

def write2 (v : StateVector) (i : Nat) (a : ℂ) (j : Nat) (b : ℂ) : StateVector := (v.write i a).write j b

/-- Modelled from the spec: `clear()` zeroes every amplitude. -/
def clear (v : StateVector) : StateVector := { v with amp := fun _ => 0 }

/-- Modelled from the spec: `copy_in(inputState)` overwrites the whole allocation. -/
def copyIn (v : StateVector) (src : Nat → ℂ) : StateVector :=
  { v with amp := fun i => if i < v.size then src i else v.amp i }

/-- Modelled from the spec: `copy_in(pagePtr, offset, length)` and `copy_in(other, srcOffset, dstOffset, length)`
overwrite `length` amplitudes from `dstOffset` on. -/
def copyInPage (v : StateVector) (page : Nat → ℂ) (srcOffset dstOffset length : Nat) : StateVector :=
  { v with amp := fun i => if dstOffset ≤ i ∧ i < dstOffset + length then page (i - dstOffset + srcOffset) else v.amp i }

/-- Modelled from the spec: `shuffle(other)` swaps the upper half of this buffer with the lower half of `other`. -/
def shuffle (v o : StateVector) : StateVector × StateVector :=
  let half := v.size / 2
  ({ v with amp := fun i => if half ≤ i ∧ i < v.size then o.amp (i - half) else v.amp i },
   { o with amp := fun i => if i < half then v.amp (i + half) else o.amp i })

def mapBelow (v : StateVector) (n : Nat) (f : Nat → ℂ → ℂ) : StateVector :=
  { v with amp := fun i => if i < n then f i (v.amp i) else v.amp i }

def generate (n : Nat) (f : Nat → ℂ) : StateVector := (alloc n).mapBelow n fun i _ => f i

@[simp] theorem generate_size (n : Nat) (f : Nat → ℂ) : (generate n f).size = n := rfl

theorem generate_amp (n : Nat) (f : Nat → ℂ) (i : Nat) : (generate n f).amp i = if i < n then f i else 0 := rfl

def normSum (v : StateVector) : ℝ := ∑ i ∈ Finset.range v.size, Complex.normSq (v.amp i)

@[simp] theorem write_size (v : StateVector) (i : Nat) (a : ℂ) : (v.write i a).size = v.size := rfl
@[simp] theorem write2_size (v : StateVector) (i j : Nat) (a b : ℂ) : (v.write2 i a j b).size = v.size := rfl
@[simp] theorem clear_size (v : StateVector) : v.clear.size = v.size := rfl
@[simp] theorem alloc_size (n : Nat) : (alloc n).size = n := rfl
@[simp] theorem mapBelow_size (v : StateVector) (n : Nat) (f : Nat → ℂ → ℂ) : (v.mapBelow n f).size = v.size := rfl

theorem mapBelow_mapBelow (v : StateVector) (n : Nat) (f g : Nat → ℂ → ℂ) :
    (v.mapBelow n f).mapBelow n g = v.mapBelow n fun i a => g i (f i a) := by
  ext i
  · rfl
  · simp only [mapBelow]
    split <;> rfl

theorem mapBelow_id (v : StateVector) (n : Nat) : v.mapBelow n (fun _ a => a) = v := by
  ext i
  · rfl
  · simp only [mapBelow]
    split <;> rfl
@[simp] theorem clear_amp (v : StateVector) (i : Nat) : v.clear.amp i = 0 := rfl
@[simp] theorem alloc_amp (n i : Nat) : (alloc n).amp i = 0 := rfl

@[simp] theorem write_amp (v : StateVector) (i j : Nat) (a : ℂ) :
    (v.write i a).amp j = if j = i then a else v.amp j := by
  simp [write, Function.update_apply]

theorem normSum_write (v : StateVector) (i : Nat) (inside : i < v.size) (a : ℂ) :
    (v.write i a).normSum = v.normSum + (Complex.normSq a - Complex.normSq (v.amp i)) := by
  have mem := Finset.mem_range.mpr inside
  have rest : ∀ j ∈ Finset.range v.size \ {i}, Complex.normSq ((v.write i a).amp j) = Complex.normSq (v.amp j) :=
    fun j other => by rw [write_amp, if_neg (Finset.not_mem_singleton.mp (Finset.mem_sdiff.mp other).2)]
  rw [normSum, normSum, write_size, Finset.sum_eq_add_sum_diff_singleton mem,
    Finset.sum_eq_add_sum_diff_singleton mem fun j => Complex.normSq (v.amp j), Finset.sum_congr rfl rest, write_amp,
    if_pos rfl]
  ring

def mapStep (pos : Nat → Nat) (g : Nat → ℂ → ℂ) (v : StateVector) (l : Nat) : StateVector :=
  v.write (pos l) (g l (v.amp (pos l)))

section SlotKernel

variable (pos : Nat → Nat) (g : Nat → ℂ → ℂ)

@[simp] theorem foldl_mapStep_size (L : List Nat) (v : StateVector) : (L.foldl (mapStep pos g) v).size = v.size := by
  induction L generalizing v with
  | nil => rfl
  | cons l L ih => simp [ih, mapStep]

theorem foldl_mapStep_frame (L : List Nat) (v : StateVector) (i : Nat) (outside : i ∉ L.map pos) :
    (L.foldl (mapStep pos g) v).amp i = v.amp i := by
  induction L generalizing v with
  | nil => rfl
  | cons l L ih =>
      simp only [List.map_cons, List.mem_cons, not_or] at outside
      rw [List.foldl_cons, ih _ outside.2, mapStep, write_amp, if_neg outside.1]

theorem foldl_mapStep_slot (L : List Nat) (v : StateVector) (distinct : (L.map pos).Nodup) (l : Nat) (mem : l ∈ L) :
    (L.foldl (mapStep pos g) v).amp (pos l) = g l (v.amp (pos l)) := by
  induction L generalizing v with
  | nil => cases mem
  | cons l0 L ih =>
      rw [List.map_cons, List.nodup_cons] at distinct
      rw [List.foldl_cons]
      rcases List.mem_cons.mp mem with rfl | later
      · rw [foldl_mapStep_frame pos g L _ _ distinct.1, mapStep, write_amp, if_pos rfl]
      · rw [ih _ distinct.2 later, mapStep, write_amp,
          if_neg fun (same : pos l = pos l0) => distinct.1 (same ▸ List.mem_map_of_mem pos later)]

end SlotKernel

def pairStep (lo hi : Nat → Nat) (f : Nat → ℂ → ℂ → ℂ × ℂ) (v : StateVector) (l : Nat) : StateVector :=
  v.write2 (lo l) (f l (v.amp (lo l)) (v.amp (hi l))).1 (hi l) (f l (v.amp (lo l)) (v.amp (hi l))).2

section PairKernel

variable (lo hi : Nat → Nat) (f : Nat → ℂ → ℂ → ℂ × ℂ)

@[simp] theorem foldl_pairStep_size (L : List Nat) (v : StateVector) :
    (L.foldl (pairStep lo hi f) v).size = v.size := by
  induction L generalizing v with
  | nil => rfl
  | cons l L ih => simp [ih, pairStep]

theorem pairs_nodup_cons {l : Nat} {L : List Nat} (disjoint : ((l :: L).map lo ++ (l :: L).map hi).Nodup) :
    lo l ≠ hi l ∧ lo l ∉ L.map lo ++ L.map hi ∧ hi l ∉ L.map lo ++ L.map hi ∧ (L.map lo ++ L.map hi).Nodup := by
  have moved : ((l :: L).map lo ++ (l :: L).map hi).Perm (lo l :: hi l :: (L.map lo ++ L.map hi)) := by
    simp [List.perm_middle]
  have split := moved.nodup_iff.mp disjoint
  simp only [List.nodup_cons, List.mem_cons, not_or] at split
  exact ⟨split.1.1, split.1.2, split.2.1, split.2.2⟩

theorem foldl_pairStep_frame (L : List Nat) (v : StateVector) (i : Nat) (outside : i ∉ L.map lo ++ L.map hi) :
    (L.foldl (pairStep lo hi f) v).amp i = v.amp i := by
  induction L generalizing v with
  | nil => rfl
  | cons l L ih =>
      simp only [List.map_cons, List.mem_append, List.mem_cons, not_or] at outside
      rw [List.foldl_cons, ih _ (by simp [outside])]
      simp [pairStep, write2, outside.1.1, outside.2.1]

theorem foldl_pairStep_pair (L : List Nat) (v : StateVector) (disjoint : (L.map lo ++ L.map hi).Nodup)
    (l : Nat) (mem : l ∈ L) :
    (L.foldl (pairStep lo hi f) v).amp (lo l) = (f l (v.amp (lo l)) (v.amp (hi l))).1 ∧
    (L.foldl (pairStep lo hi f) v).amp (hi l) = (f l (v.amp (lo l)) (v.amp (hi l))).2 := by
  induction L generalizing v with
  | nil => cases mem
  | cons l0 L ih =>
      obtain ⟨distinct, freshLo, freshHi, rest⟩ := pairs_nodup_cons lo hi disjoint
      rw [List.foldl_cons]
      rcases List.mem_cons.mp mem with rfl | later
      · rw [foldl_pairStep_frame lo hi f L _ _ freshLo, foldl_pairStep_frame lo hi f L _ _ freshHi]
        simp [pairStep, write2, distinct]
      · have inLo : lo l ∈ L.map lo ++ L.map hi := List.mem_append_left _ (List.mem_map_of_mem lo later)
        have inHi : hi l ∈ L.map lo ++ L.map hi := List.mem_append_right _ (List.mem_map_of_mem hi later)
        have awayLo : lo l ≠ lo l0 ∧ lo l ≠ hi l0 :=
          ⟨fun same => freshLo (same ▸ inLo), fun same => freshHi (same ▸ inLo)⟩
        have awayHi : hi l ≠ lo l0 ∧ hi l ≠ hi l0 :=
          ⟨fun same => freshLo (same ▸ inHi), fun same => freshHi (same ▸ inHi)⟩
        simpa [pairStep, write2, awayLo, awayHi] using ih (pairStep lo hi f v l0) rest later

structure KernelState where
  stateVec : StateVector
  rngNrm : Nat → ℝ

def accumStep (acc : Nat → ℂ → ℂ → (Nat → ℝ) → Nat → ℝ) (s : KernelState) (l : Nat) : KernelState :=
  ⟨pairStep lo hi f s.stateVec l, acc l (s.stateVec.amp (lo l)) (s.stateVec.amp (hi l)) s.rngNrm⟩

variable (acc : Nat → ℂ → ℂ → (Nat → ℝ) → Nat → ℝ)

@[simp] theorem foldl_accumStep_stateVec (L : List Nat) (s : KernelState) :
    (L.foldl (accumStep lo hi f acc) s).stateVec = L.foldl (pairStep lo hi f) s.stateVec := by
  induction L generalizing s with
  | nil => rfl
  | cons l L ih => exact ih _

theorem foldl_accumStep_rngNrm (L : List Nat) (s : KernelState) (disjoint : (L.map lo ++ L.map hi).Nodup) :
    (L.foldl (accumStep lo hi f acc) s).rngNrm =
      L.foldl (fun r l => acc l (s.stateVec.amp (lo l)) (s.stateVec.amp (hi l)) r) s.rngNrm := by
  induction L generalizing s with
  | nil => rfl
  | cons l0 L ih =>
      obtain ⟨_, freshLo, freshHi, rest⟩ := pairs_nodup_cons lo hi disjoint
      rw [List.foldl_cons, List.foldl_cons, ih _ rest]
      refine List.foldl_ext _ _ _ fun r l mem => ?_
      have away : ∀ i ∈ L.map lo ++ L.map hi, (pairStep lo hi f s.stateVec l0).amp i = s.stateVec.amp i := by
        intro i member
        refine foldl_pairStep_frame lo hi f [l0] s.stateVec i ?_
        simp only [List.map_cons, List.map_nil, List.cons_append, List.nil_append, List.mem_cons,
          List.not_mem_nil, or_false, not_or]
        exact ⟨fun same => freshLo (same ▸ member), fun same => freshHi (same ▸ member)⟩
      simp only [accumStep]
      rw [away _ (List.mem_append_left _ (List.mem_map_of_mem lo mem)),
        away _ (List.mem_append_right _ (List.mem_map_of_mem hi mem))]

end PairKernel

end StateVector

end Qrack
