import Mathlib

set_option autoImplicit false

/- Index arithmetic of the state-vector engine. Indices (`bitCapIntOcl`) are natural numbers:
   the model never wraps a word, and a shift past the word, which C++ leaves undefined, is the
   fault `undefinedShift` where the code makes one.
   The parallel iterators are header code; only the set of indices they visit and its order
   matter to the kernels, which write disjoint pairs and reduce with commutative sums. -/
namespace Qrack

/-- Modelled from the spec: `par_for_mask(lo, hi, skipPowers, fn)` holds the bits of a sorted list
of one-bit masks at zero and visits every other index below `hi`, in increasing order. -/
def parForMask (hi : Nat) (skipPowers : List Nat) : List Nat :=
  (List.range hi).filter fun lcv => skipPowers.all fun p => lcv &&& p == 0

/-- Modelled from the spec: `par_for_skip(lo, hi, skipPower, skipLen, fn)` visits the indices below
`hi` whose `skipLen`-bit field at position `log2 skipPower` is zero. -/
def parForSkip (hi skipPower skipLen : Nat) : List Nat :=
  (List.range hi).filter fun lcv => lcv &&& ((2 ^ skipLen - 1) * skipPower) == 0

/-- Modelled from the spec: `popCountOcl` counts the set bits of a word. -/
def popCountOcl (n : Nat) : Nat := (List.range n).countP n.testBit

def isPowerOfTwo (n : Nat) : Bool := n != 0 && n &&& (n - 1) == 0

def andNot (a b : Nat) : Nat := a ^^^ (a &&& b)

@[simp] theorem testBit_andNot (a b i : Nat) : (andNot a b).testBit i = (a.testBit i && !b.testBit i) := by
  simp only [andNot, Nat.testBit_xor, Nat.testBit_and]
  cases a.testBit i <;> cases b.testBit i <;> rfl

def packControls (qPowers : List Nat) (lcv : Nat) : Nat :=
  qPowers.enum.foldl (fun offset (j, p) => if lcv &&& p != 0 then offset ||| 2 ^ j else offset) 0

def depositSkips (skipPowers : List Nat) (offset : Nat) : Nat :=
  let split := skipPowers.foldl (fun (acc : Nat × Nat) p =>
    let iLow := acc.2 &&& (p - 1)
    (acc.1 ||| iLow, (acc.2 ^^^ iLow) <<< 1)) (0, offset)
  split.1 ||| split.2

theorem testBit_sub_one_of_lower {n a b : Nat} (lower : a < b) (bitA : n.testBit a = true) (bitB : n.testBit b = true) :
    (n - 1).testBit b = true := by
  have low : 2 ^ a ≤ n % 2 ^ b := Nat.testBit_implies_ge (by simp [Nat.testBit_mod_two_pow, lower, bitA])
  have split : n - 1 = 2 ^ b * (n / 2 ^ b) + (n % 2 ^ b - 1) := by
    have := Nat.div_add_mod n (2 ^ b)
    have := Nat.one_le_two_pow (n := a)
    omega
  rw [split, Nat.testBit_mul_pow_two_add _ (by have := Nat.mod_lt n (Nat.two_pow_pos b); omega), if_neg (lt_irrefl b),
    Nat.sub_self, Nat.testBit_zero, ← bitB, Nat.testBit_to_div_mod]

theorem isPowerOfTwo_eq_false_of_two_bits {n a b : Nat} (lower : a < b) (bitA : n.testBit a = true)
    (bitB : n.testBit b = true) : isPowerOfTwo n = false := by
  have both : (n &&& (n - 1)).testBit b = true := by
    rw [Nat.testBit_and, bitB, testBit_sub_one_of_lower lower bitA bitB]; rfl
  have nonzero : n &&& (n - 1) ≠ 0 := fun zero => by rw [zero, Nat.zero_testBit] at both; exact Bool.false_ne_true both
  simp [isPowerOfTwo, nonzero]

theorem and_two_pow_eq_zero (n i : Nat) : n &&& 2 ^ i = 0 ↔ n.testBit i = false := by
  rw [Nat.and_two_pow]
  cases n.testBit i <;> simp

theorem and_two_pow_beq (n i : Nat) : (n &&& 2 ^ i == 2 ^ i) = n.testBit i := by
  rw [Nat.and_two_pow]
  cases n.testBit i <;> simp [(Nat.two_pow_pos i).ne]

theorem andNot_le (a b : Nat) : andNot a b ≤ a :=
  Nat.le_of_testBit fun j set => by simp only [testBit_andNot, Bool.and_eq_true] at set; exact set.1

section MaskBits

/- A mask `m` and a value `p` of its bits (`p & m = p`): the indices whose `m` bits spell `p` are the
indices that miss `m`, each or-ed with `p`. -/

variable {mask p : Nat}

theorem testBit_of_and_eq_zero {a b : Nat} (disjoint : a &&& b = 0) (j : Nat) :
    (a.testBit j && b.testBit j) = false := by
  rw [← Nat.testBit_and, disjoint, Nat.zero_testBit]

theorem or_and_mask_eq {lcv : Nat} (disjoint : lcv &&& mask = 0) (sub : p &&& mask = p) :
    (lcv ||| p) &&& mask = p := by
  rw [Nat.and_distrib_right, disjoint, sub, Nat.zero_or]

theorem andNot_or_and_mask (i : Nat) : andNot i mask ||| i &&& mask = i := by
  apply Nat.eq_of_testBit_eq
  intro j
  simp only [Nat.testBit_or, testBit_andNot, Nat.testBit_and]
  cases i.testBit j <;> cases mask.testBit j <;> rfl

theorem andNot_and_mask (i : Nat) : andNot i mask &&& mask = 0 := by
  apply Nat.eq_of_testBit_eq
  intro j
  simp only [Nat.testBit_and, testBit_andNot, Nat.zero_testBit]
  cases i.testBit j <;> cases mask.testBit j <;> rfl

theorem andNot_or_of_disjoint {lcv : Nat} (disjoint : lcv &&& mask = 0) (sub : p &&& mask = p) :
    andNot (lcv ||| p) mask = lcv := by
  apply Nat.eq_of_testBit_eq
  intro j
  have clear := testBit_of_and_eq_zero disjoint j
  have inMask := congrArg (Nat.testBit · j) sub
  simp only [Nat.testBit_and] at inMask
  simp only [testBit_andNot, Nat.testBit_or]
  revert clear inMask
  cases lcv.testBit j <;> cases p.testBit j <;> cases mask.testBit j <;> simp

end MaskBits

@[simp] theorem mem_parForMask (hi lcv : Nat) (skipPowers : List Nat) :
    lcv ∈ parForMask hi skipPowers ↔ lcv < hi ∧ ∀ p ∈ skipPowers, lcv &&& p = 0 := by
  simp [parForMask]

@[simp] theorem mem_parForSkip_bit (hi lcv t : Nat) :
    lcv ∈ parForSkip hi (2 ^ t) 1 ↔ lcv < hi ∧ lcv.testBit t = false := by
  simp [parForSkip, and_two_pow_eq_zero]

theorem nodup_parForMask (hi : Nat) (skipPowers : List Nat) : (parForMask hi skipPowers).Nodup :=
  (List.nodup_range hi).filter _

theorem nodup_parForSkip (hi skipPower skipLen : Nat) : (parForSkip hi skipPower skipLen).Nodup :=
  (List.nodup_range hi).filter _

theorem depositSkips_nil (offset : Nat) : depositSkips [] offset = offset := by
  simp [depositSkips]

section TargetBit

variable {x y t : Nat}

@[simp] theorem testBit_or_two_pow_self : (x ||| 2 ^ t).testBit t = true := by
  simp [Nat.testBit_or, Nat.testBit_two_pow_self]

theorem testBit_or_two_pow_of_ne {i : Nat} (other : i ≠ t) : (x ||| 2 ^ t).testBit i = x.testBit i := by
  simp [Nat.testBit_or, Nat.testBit_two_pow_of_ne (Ne.symm other)]

theorem or_two_pow_injective (clearX : x.testBit t = false) (clearY : y.testBit t = false)
    (same : x ||| 2 ^ t = y ||| 2 ^ t) : x = y := by
  apply Nat.eq_of_testBit_eq
  intro i
  by_cases at_t : i = t
  · subst at_t
    rw [clearX, clearY]
  · rw [← testBit_or_two_pow_of_ne at_t, same, testBit_or_two_pow_of_ne at_t]

theorem or_two_pow_lt {n : Nat} (bound : x < 2 ^ n) (inside : t < n) : x ||| 2 ^ t < 2 ^ n :=
  Nat.or_lt_two_pow bound (Nat.pow_lt_pow_right (by decide) inside)

@[simp] theorem testBit_xor_two_pow_self : (x ^^^ 2 ^ t).testBit t = !x.testBit t := by
  simp [Nat.testBit_xor, Nat.testBit_two_pow_self]

theorem xor_two_pow_or (set : x.testBit t = true) : (x ^^^ 2 ^ t) ||| 2 ^ t = x := by
  apply Nat.eq_of_testBit_eq
  intro i
  by_cases at_t : i = t
  · subst at_t
    simp [set]
  · rw [testBit_or_two_pow_of_ne at_t, Nat.testBit_xor, Nat.testBit_two_pow_of_ne (Ne.symm at_t)]
    simp

theorem xor_two_pow_lt {n : Nat} (bound : x < 2 ^ n) (inside : t < n) : x ^^^ 2 ^ t < 2 ^ n :=
  Nat.xor_lt_two_pow bound (Nat.pow_lt_pow_right (by decide) inside)

theorem targetPairs_nodup (hi : Nat) :
    ((parForSkip hi (2 ^ t) 1).map (fun l => l) ++ (parForSkip hi (2 ^ t) 1).map (· ||| 2 ^ t)).Nodup := by
  rw [List.nodup_append, List.map_id']
  refine ⟨nodup_parForSkip _ _ _, (nodup_parForSkip _ _ _).map_on ?_, ?_⟩
  · intro a memA b memB same
    exact or_two_pow_injective ((mem_parForSkip_bit _ _ _).mp memA).2
      ((mem_parForSkip_bit _ _ _).mp memB).2 same
  · intro a memA memB
    obtain ⟨b, -, rfl⟩ := List.mem_map.mp memB
    simp at memA

end TargetBit

example : popCountOcl 0b1011 = 3 := by decide
example : packControls [4, 1] 0b101 = 0b11 := by decide

end Qrack
