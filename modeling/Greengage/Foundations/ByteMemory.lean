import Mathlib.Data.Nat.Bitwise

/-!
Contract: words in byte-addressed memory.
-/

namespace Greengage.Foundations

open Function BitVec

abbrev Memory := Nat → BitVec 8

/-- The value of the `count` bytes from `address` on. -/
def loadNat (memory : Memory) : Nat → Nat → Nat
  | _, 0 => 0
  | address, count + 1 => (memory address).toNat + 256 * loadNat memory (address + 1) count

/-- Store the low `count` bytes of `value` from `address` on. -/
def storeNat (memory : Memory) : Nat → Nat → Nat → Memory
  | _, 0, _ => memory
  | address, count + 1, value =>
    update (storeNat memory (address + 1) count (value / 256)) address (BitVec.ofNat 8 value)

def load32 (memory : Memory) (address : Nat) : BitVec 32 := BitVec.ofNat 32 (loadNat memory address 4)

def store32 (memory : Memory) (address : Nat) (word : BitVec 32) : Memory :=
  storeNat memory address 4 word.toNat

def load64 (memory : Memory) (address : Nat) : BitVec 64 := BitVec.ofNat 64 (loadNat memory address 8)

def store64 (memory : Memory) (address : Nat) (word : BitVec 64) : Memory :=
  storeNat memory address 8 word.toNat

/-- The bytes from `address` on, in order. -/
def readBytes (memory : Memory) (address count : Nat) : List (BitVec 8) :=
  (List.range count).map fun i => memory (address + i)

variable {address addr count : Nat}

theorem storeNat_outside (memory) {other} (value) (out : other < addr ∨ addr + count ≤ other) :
    storeNat memory addr count value other = memory other := by
  induction count generalizing addr value with
  | zero => rfl
  | succ count ih =>
    rw [storeNat, update_of_ne (by omega), ih _ (by omega)]

variable {memory memory' : Memory}

theorem loadNat_congr
    (same : ∀ other, addr ≤ other → other < addr + count → memory' other = memory other) :
    loadNat memory' addr count = loadNat memory addr count := by
  induction count generalizing addr with
  | zero => rfl
  | succ count ih =>
    rw [loadNat, loadNat, same addr le_rfl (by omega),
      ih fun other lower upper => same other (by omega) (by omega)]

theorem loadNat_storeNat (memory addr count value) :
    loadNat (storeNat memory addr count value) addr count = value % 256 ^ count := by
  induction count generalizing addr value with
  | zero => simp [loadNat, Nat.mod_one]
  | succ count ih =>
    have tail : loadNat (storeNat memory addr (count + 1) value) (addr + 1) count =
        value / 256 % 256 ^ count := by
      rw [← ih (addr + 1) (value / 256)]
      apply loadNat_congr
      intro _ _ _
      rw [storeNat, update_of_ne (by omega)]
    have split : value % 256 ^ (count + 1) = value % 256 + 256 * (value / 256 % 256 ^ count) := by
      rw [pow_succ', Nat.mod_mul]
    rw [loadNat, tail, storeNat, update_self, toNat_ofNat, split]

theorem loadNat_lt (memory addr count) : loadNat memory addr count < 256 ^ count := by
  induction count generalizing addr with
  | zero => exact Nat.one_pos
  | succ count ih =>
    have := ih (addr + 1)
    rw [loadNat, pow_succ']
    omega

theorem readBytes_eq_of_loadNat_eq {addr'}
    (same : loadNat memory addr count = loadNat memory' addr' count) :
    readBytes memory addr count = readBytes memory' addr' count := by
  induction count generalizing addr addr' with
  | zero => rfl
  | succ count ih =>
    rw [loadNat, loadNat] at same
    have first : memory addr = memory' addr' := eq_of_toNat_eq (by omega)
    have rest := @ih (addr + 1) (addr' + 1) (by omega)
    simp only [readBytes, add_right_comm, add_assoc] at rest
    simp only [readBytes, List.range_succ_eq_map, List.map_cons, List.map_map, add_zero,
      comp_def, first, rest]

variable {other : Nat}

section

variable {size value : Nat} (disj : other + size ≤ addr ∨ addr + count ≤ other)
include disj

theorem loadNat_storeNat_disjoint :
    loadNat (storeNat memory addr count value) other size = loadNat memory other size := by
  apply loadNat_congr
  intro _ _ _
  exact storeNat_outside memory value (by omega)

theorem readBytes_storeNat_disjoint :
    readBytes (storeNat memory addr count value) other size = readBytes memory other size := by
  apply List.map_congr_left
  intro _ mem
  rw [List.mem_range] at mem
  exact storeNat_outside memory value (by omega)

end

@[simp] theorem load32_store32 (memory addr word) :
    load32 (store32 memory addr word) addr = word := by
  rw [load32, store32, loadNat_storeNat, Nat.mod_eq_of_lt (show word.toNat < 256 ^ 4 from word.isLt),
    ofNat_toNat,
    setWidth_eq]

@[simp] theorem load64_store64 (memory addr word) :
    load64 (store64 memory addr word) addr = word := by
  rw [load64, store64, loadNat_storeNat, Nat.mod_eq_of_lt (show word.toNat < 256 ^ 8 from word.isLt),
    ofNat_toNat,
    setWidth_eq]

theorem readBytes_of_load64 {addr'} (same : load64 memory addr = load64 memory' addr') :
    readBytes memory addr 8 = readBytes memory' addr' 8 := by
  apply readBytes_eq_of_loadNat_eq
  have small (bytes) (start) : loadNat bytes start 8 < 2 ^ 64 :=
    loadNat_lt bytes start 8
  have vals := congrArg BitVec.toNat same
  simpa only [load64, toNat_ofNat, Nat.mod_eq_of_lt (small _ _)] using vals

section

variable {word : BitVec 32}

theorem load32_store32_disjoint (disj : other + 4 ≤ addr ∨ addr + 4 ≤ other) :
    load32 (store32 memory addr word) other = load32 memory other := by
  rw [load32, store32, loadNat_storeNat_disjoint disj, load32]

theorem load32_store64_disjoint {word} (disj : other + 4 ≤ addr ∨ addr + 8 ≤ other) :
    load32 (store64 memory addr word) other = load32 memory other := by
  rw [load32, store64, loadNat_storeNat_disjoint disj, load32]

theorem load64_store32_disjoint (disj : other + 8 ≤ addr ∨ addr + 4 ≤ other) :
    load64 (store32 memory addr word) other = load64 memory other := by
  rw [load64, store32, loadNat_storeNat_disjoint disj, load64]

theorem readBytes_store32_disjoint {size} (disj : other + size ≤ addr ∨ addr + 4 ≤ other) :
    readBytes (store32 memory addr word) other size = readBytes memory other size :=
  readBytes_storeNat_disjoint disj

end

/-- The low `count` bytes of `value`, the lowest first. -/
def encodeLE : Nat → Nat → List (BitVec 8)
  | 0, _ => []
  | count + 1, value => BitVec.ofNat 8 value :: encodeLE count (value / 256)

def decodeLE : List (BitVec 8) → Nat
  | [] => 0
  | byte :: rest => byte.toNat + 256 * decodeLE rest

@[simp] theorem length_encodeLE (count value) : (encodeLE count value).length = count := by
  induction count generalizing value with
  | zero => rfl
  | succ count ih => rw [encodeLE, List.length_cons, ih]

theorem decodeLE_encodeLE {value} (fits : value < 256 ^ count) :
    decodeLE (encodeLE count value) = value := by
  induction count generalizing value with
  | zero =>
    have zero : value = 0 := Nat.lt_one_iff.mp fits
    rw [zero, encodeLE, decodeLE]
  | succ count ih =>
    have rest : value / 256 < 256 ^ count := by
      apply Nat.div_lt_of_lt_mul
      rwa [← pow_succ']
    rw [encodeLE, decodeLE, ih rest, toNat_ofNat]
    omega

end Greengage.Foundations
