import Greengage.Foundations.ByteMemory
import Mathlib.Algebra.Order.BigOperators.Group.List
import Mathlib.Algebra.Order.Group.Nat
import Mathlib.Data.List.Chain

/-!
Contract: arithmetic on run-length encoded vectors.

Does not own: the operations on values. A value is of any type, with a `default` for what is read
behind the last one. Lengths are not truncated to an int: their sum is one.
-/

namespace Greengage.SparseVector

open Foundations List

/-- A StringInfo ends with NUL. -/
def int8compstoragesize (entry : List (BitVec 8)) : Nat :=
  let first := (entry.headD 0).toInt
  if first < 0 then 1 else 1 + first.toNat

def int8ToCompword (num : Nat) : List (BitVec 8) :=
  if num < 128 then [BitVec.ofInt 8 (-num)]
  else if num < 32768 then 2 :: encodeLE 2 num
  else if num < 2147483648 then 4 :: encodeLE 4 num
  else 8 :: encodeLE 8 num

def compwordToInt8 (entry : List (BitVec 8)) : Except String Int :=
  match int8compstoragesize entry with
  | 1 => .ok (-(entry.headD 0).toInt)
  | 3 => .ok (BitVec.ofNat 16 (decodeLE ((entry.drop 1).take 2))).toInt
  | 5 => .ok (BitVec.ofNat 32 (decodeLE ((entry.drop 1).take 4))).toInt
  | 9 => .ok (BitVec.ofNat 64 (decodeLE ((entry.drop 1).take 8))).toInt
  | size => .error s!"compword_to_int8 got an error size {size}"

/-- An index of positive counts, in entries of any size. -/
inductive Counts : List (BitVec 8) → List Nat → Prop
  | nil : Counts [] []
  | cons {index num nums} (pos : 0 < num) (first : compwordToInt8 index = .ok (num : Nat))
    (whole : int8compstoragesize index ≤ index.length)
    (later : Counts (index.drop (int8compstoragesize index)) nums) : Counts index (num :: nums)

theorem Counts.head_pos {index num nums} (counts : Counts index (num :: nums)) : 0 < num := by
  cases counts
  assumption

theorem toInt_ofInt_neg : ∀ num : Nat, num < 128 → (BitVec.ofInt 8 (-num)).toInt = -num := by
  decide

theorem toInt_ofNat_of_lt {w num} (small : 2 * num < 2 ^ w) : (BitVec.ofNat w num).toInt = num := by
  have toNat : (BitVec.ofNat w num).toNat = num := Nat.mod_eq_of_lt (by omega)
  rw [BitVec.toInt_eq_toNat_of_lt (by rwa [toNat]), toNat]

theorem int8compstoragesize_compword (num rest) :
    int8compstoragesize (int8ToCompword num ++ rest) = (int8ToCompword num).length := by
  unfold int8ToCompword
  split_ifs with small
  · simp only [int8compstoragesize, singleton_append, headD_cons, toInt_ofInt_neg num small]
    split
    · rfl
    · simp
  all_goals simp [int8compstoragesize]

theorem compwordToInt8_compword {num} (fits : num < 2 ^ 31) (rest) :
    compwordToInt8 (int8ToCompword num ++ rest) = .ok num := by
  rw [compwordToInt8, int8compstoragesize_compword]
  unfold int8ToCompword
  split_ifs with one two four
  · simp only [length_singleton, singleton_append, headD_cons, toInt_ofInt_neg num one, neg_neg]
  · have decoded := decodeLE_encodeLE (show num < 256 ^ 2 by omega)
    simp [decoded, toInt_ofNat_of_lt (show 2 * num < 2 ^ 16 by omega)]
  · have decoded := decodeLE_encodeLE (show num < 256 ^ 4 by omega)
    simp [decoded, toInt_ofNat_of_lt (show 2 * num < 2 ^ 32 by omega)]
  · omega

theorem counts_flatMap {nums} (ok : ∀ num ∈ nums, 0 < num ∧ num < 2 ^ 31) :
    Counts (nums.flatMap int8ToCompword) nums := by
  induction nums with
  | nil => exact .nil
  | cons num nums ih =>
    obtain ⟨⟨pos, fits⟩, ok⟩ := forall_mem_cons.mp ok
    rw [flatMap_cons]
    refine .cons pos (compwordToInt8_compword fits _) ?_ ?_
    · simp [int8compstoragesize_compword]
    · rw [int8compstoragesize_compword, drop_left]
      exact ih ok

structure SparseData (V : Type) where
  uniqueValueCount : Nat
  totalValueCount : Nat
  vals : List V
  index : List (BitVec 8)

variable {V : Type}

def makeSparseData : SparseData V := ⟨0, 0, [], []⟩

def addRunToSdata (runVal : V) (runLen : Nat) (sdata : SparseData V) : SparseData V :=
  ⟨sdata.uniqueValueCount + 1, sdata.totalValueCount + runLen, sdata.vals ++ [runVal],
    sdata.index ++ int8ToCompword runLen⟩

/-- A place in a vector: its values and its index from there on, and the end of the run. -/
structure Cursor (V : Type) where
  vals : List V
  index : List (BitVec 8)
  nxt : Int

def Cursor.load (vals : List V) (index : List (BitVec 8)) (lst : Int) :
    Except String (Cursor V) :=
  (compwordToInt8 index).map fun runLength => ⟨vals, index, runLength + lst⟩

/-- `nextpos` is the smaller end: in each of the three cases, the sides that end there go on. -/
def Cursor.advanceTo (nextpos : Int) (cursor : Cursor V) : Except String (Cursor V) :=
  if cursor.nxt = nextpos then
    load cursor.vals.tail (cursor.index.drop (int8compstoragesize cursor.index)) cursor.nxt
  else .ok cursor

section

variable [Inhabited V] [DecidableEq V] (op : V → V → V)

/-- There is no pending run in the first iteration, when `tot_run_length` is -1. -/
def accumulate (sdata : SparseData V) (pending : Option (V × Nat)) (newValue : V) (length : Nat) :
    SparseData V × Nat :=
  match pending with
  | none => (sdata, length)
  | some (lastNewValue, totRunLength) =>
    if newValue ≠ lastNewValue then (addRunToSdata lastNewValue totRunLength sdata, length)
    else (sdata, totRunLength + length)

/-- The loop; `none` without fuel. -/
def opLoop (total lastpos : Int) (sdata : SparseData V) (pending : Option (V × Nat))
    (left right : Cursor V) : Nat → Option (Except String (SparseData V))
  | 0 => none
  | fuel + 1 =>
    let newValue := op (left.vals.headD default) (right.vals.headD default)
    let nextpos := min left.nxt right.nxt
    let (sdata, totRunLength) := accumulate sdata pending newValue (nextpos - lastpos).toNat
    if left.nxt ≥ total ∧ right.nxt ≥ total then
      some (.ok (if totRunLength ≠ 0 then addRunToSdata newValue totRunLength sdata else sdata))
    else
      match left.advanceTo nextpos, right.advanceTo nextpos with
      | .ok left, .ok right =>
        opLoop total nextpos sdata (some (newValue, totRunLength)) left right fuel
      | .error message, _ | _, .error message => some (.error message)

def opSdataBySdata (left right : SparseData V) (fuel : Nat) :
    Option (Except String (SparseData V)) :=
  match Cursor.load left.vals left.index 0, Cursor.load right.vals right.index 0 with
  | .ok leftCursor, .ok rightCursor =>
    if left.totalValueCount ≠ right.totalValueCount then some (.error
      "operation undefined when dimension of left and right vectors are not the same")
    else opLoop op left.totalValueCount 0 makeSparseData none leftCursor rightCursor fuel
  | .error message, _ | _, .error message => some (.error message)

end

/-! ### Runs -/

abbrev Runs (V : Type) := List (V × Nat)

def expand (runs : Runs V) : List V := runs.flatMap fun run => replicate run.2 run.1

def totalOf (runs : Runs V) : Nat := (runs.map Prod.snd).sum

/-- A well-formed vector. -/
structure SparseData.Holds (sdata : SparseData V) (runs : Runs V) : Prop where
  unique : sdata.uniqueValueCount = runs.length
  total : sdata.totalValueCount = totalOf runs
  fits : sdata.totalValueCount < 2 ^ 31
  vals : sdata.vals = runs.map Prod.fst
  counts : Counts sdata.index (runs.map Prod.snd)

/-- What `add_run_to_sdata` makes of runs. -/
def encode (runs : Runs V) : SparseData V :=
  ⟨runs.length, totalOf runs, runs.map Prod.fst, (runs.map Prod.snd).flatMap int8ToCompword⟩

/-- Runs of some elements, merged where they can be. -/
structure Merged (runs : Runs V) (elements : List V) : Prop where
  expands : expand runs = elements
  pos : ∀ run ∈ runs, 0 < run.2
  chain : (runs.map Prod.fst).IsChain (· ≠ ·)

variable {runs out ls rs : Runs V} {elements : List V} {pending : Option (V × Nat)} {v w : V}
  {a b : Nat} {total pos : Int} {left right cursor : Cursor V}

@[simp] theorem totalOf_cons : totalOf ((v, a) :: ls) = a + totalOf ls := rfl

theorem addRunToSdata_encode :
    addRunToSdata v a (encode runs) = encode (runs ++ [(v, a)]) := by
  simp [addRunToSdata, encode, totalOf]

theorem length_expand (runs : Runs V) : (expand runs).length = totalOf runs := by
  simp [expand, totalOf]

theorem Merged.holds (merged : Merged runs elements) (fits : elements.length < 2 ^ 31) :
    (encode runs).Holds runs := by
  rw [← merged.expands, length_expand] at fits
  refine ⟨rfl, rfl, fits, rfl, counts_flatMap (forall_mem_map.mpr fun run mem => ?_)⟩
  have le : run.2 ≤ totalOf runs := single_le_sum (by simp) _ (mem_map_of_mem mem)
  exact ⟨merged.pos run mem, lt_of_le_of_lt le fits⟩

theorem accumulate_merged [DecidableEq V] (v) (merged : Merged (out ++ pending.toList) elements)
    (first : pending = none → out = []) (pos : 0 < a) :
    ∃ out' b, accumulate (encode out) pending v a = (encode out', b) ∧
      Merged (out' ++ [(v, b)]) (elements ++ replicate a v) := by
  obtain ⟨rfl, positive, chain⟩ := merged
  match pending with
  | none =>
    obtain rfl := first rfl
    exact ⟨[], a, rfl, by simp [expand], by simpa, by simp⟩
  | some (w, b) =>
    by_cases new : v ≠ w
    · refine ⟨out ++ [(w, b)], a, ?_, by simp [expand], ?_, ?_⟩
      · rw [accumulate, if_pos new, addRunToSdata_encode]
      · simpa [or_imp, forall_and, pos] using positive
      · simp only [map_append] at chain ⊢
        exact chain.append (by simp) (by simpa using new.symm)
    · obtain rfl := not_not.mp new
      refine ⟨out, b + a, by simp [accumulate], by simp [expand], ?_, by simpa using chain⟩
      simp only [forall_mem_append, forall_mem_singleton] at positive ⊢
      exact ⟨positive.1, by omega⟩

/-- A cursor within a run, of which `a` elements follow `pos`. -/
structure Cursor.At (cursor : Cursor V) (total pos : Int) (v : V) (a : Nat) (rest : Runs V) :
    Prop where
  vals : cursor.vals = v :: rest.map Prod.fst
  nxt : cursor.nxt = pos + a
  positive : 0 < a
  later : Counts (cursor.index.drop (int8compstoragesize cursor.index)) (rest.map Prod.snd)
  total : cursor.nxt + totalOf rest = total

theorem Cursor.load_at {index} (counts : Counts index (((v, a) :: ls).map Prod.snd))
    (isTotal : pos + totalOf ((v, a) :: ls) = total) :
    ∃ cursor, load (((v, a) :: ls).map Prod.fst) index pos = .ok cursor ∧
      cursor.At total pos v a ls := by
  rw [totalOf_cons] at isTotal
  cases counts with
  | cons positive first whole later =>
    refine ⟨⟨_, index, a + pos⟩, ?_, rfl, add_comm .., positive, later, ?_⟩
    · rw [load, first]
      rfl
    · dsimp only
      omega

theorem Cursor.At.advanceTo {c : Nat} (at_ : cursor.At total pos v a ls) (le : c ≤ a)
    (before : pos + c < total) :
    ∃ next w b rs, cursor.advanceTo (pos + c) = .ok next ∧ next.At total (pos + c) w b rs ∧
      expand ((v, a) :: ls) = replicate c v ++ expand ((w, b) :: rs) := by
  obtain ⟨vals, nxt, positive, later, isTotal⟩ := at_
  obtain ⟨b, rfl⟩ := Nat.exists_eq_add_of_le le
  unfold Cursor.advanceTo
  match b, ls with
  | 0, [] =>
    simp only [totalOf, map_nil, sum_nil] at isTotal
    omega
  | 0, (w, b) :: rs =>
    rw [add_zero] at nxt
    rw [nxt] at isTotal
    obtain ⟨next, loads, at_⟩ := load_at later isTotal
    refine ⟨next, w, b, rs, ?_, at_, rfl⟩
    rw [if_pos nxt, vals, nxt]
    exact loads
  | b + 1, ls =>
    refine ⟨cursor, v, b + 1, ls, if_neg (by omega), ?_, ?_⟩
    · exact ⟨vals, by omega, by omega, later, isTotal⟩
    · simp [expand, ← replicate_append_replicate]

theorem Cursor.At.eq_nil (at_ : cursor.At total pos v a ls) (ends : total ≤ cursor.nxt) :
    ls = [] := by
  obtain ⟨-, -, -, later, isTotal⟩ := at_
  match ls with
  | [] => rfl
  | (w, b) :: rest =>
    have positive := later.head_pos
    rw [totalOf_cons] at isTotal
    omega

variable [Inhabited V] [DecidableEq V] (op : V → V → V)

theorem opLoop_merged {fuel : Nat} (leftAt : left.At total pos v a ls)
    (rightAt : right.At total pos w b rs) (first : pending = none → out = [])
    (merged : Merged (out ++ pending.toList) elements) (enough : total ≤ pos + fuel) :
    ∃ runs, opLoop op total pos (encode out) pending left right fuel = some (.ok (encode runs)) ∧
      Merged runs (elements ++ zipWith op (expand ((v, a) :: ls)) (expand ((w, b) :: rs))) := by
  induction fuel generalizing pos v a ls w b rs out pending elements left right with
  | zero =>
    obtain ⟨-, nxt, positive, -, isTotal⟩ := leftAt
    omega
  | succ fuel ih =>
    have leftNxt := leftAt.nxt
    have rightNxt := rightAt.nxt
    have next : min left.nxt right.nxt = pos + min a b := by omega
    have length : (pos + min a b - pos).toNat = min a b := by omega
    have some_ : 0 < min a b := Nat.lt_min.mpr ⟨leftAt.positive, rightAt.positive⟩
    obtain ⟨out', c, added, merged⟩ := accumulate_merged (op v w) merged first some_
    rw [opLoop, leftAt.vals, rightAt.vals]
    simp only [headD_cons, next, length, added]
    by_cases ends : left.nxt ≥ total ∧ right.nxt ≥ total
    · obtain rfl := leftAt.eq_nil ends.1
      obtain rfl := rightAt.eq_nil ends.2
      have same := leftAt.total.trans rightAt.total.symm
      obtain rfl : a = b := by omega
      refine ⟨out' ++ [(op v w, c)], ?_, by simpa [expand] using merged⟩
      have cPos : c ≠ 0 := (merged.pos (op v w, c) (by simp)).ne'
      rw [if_pos ends, if_pos cPos, addRunToSdata_encode]
    · have before : pos + (min a b : Nat) < total := by omega
      obtain ⟨left', v', a', ls', leftGoes, leftAt, leftRest⟩ :=
        leftAt.advanceTo (min_le_left a b) before
      obtain ⟨right', w', b', rs', rightGoes, rightAt, rightRest⟩ :=
        rightAt.advanceTo (min_le_right a b) before
      rw [if_neg ends, leftGoes, rightGoes, leftRest, rightRest, zipWith_append (by simp),
        zipWith_replicate, min_self,
        ← append_assoc]
      exact ih leftAt rightAt (by simp) merged (by omega)

/-- The result has the elements of `op` on both vectors, and no two adjacent runs of one value. -/
theorem opSdataBySdata_elementwise (left right : SparseData V) (ls rs : Runs V)
    (leftHolds : left.Holds ls) (rightHolds : right.Holds rs)
    (same : left.totalValueCount = right.totalValueCount) (fuel : Nat)
    (enough : left.totalValueCount < fuel) :
    ∃ sdata runs, opSdataBySdata op left right fuel = some (.ok sdata) ∧ sdata.Holds runs ∧
      expand runs = zipWith op (expand ls) (expand rs) ∧
      (runs.map Prod.fst).IsChain (· ≠ ·) := by
  obtain ⟨-, leftTotal, fits, leftVals, leftCounts⟩ := leftHolds
  obtain ⟨-, rightTotal, -, rightVals, rightCounts⟩ := rightHolds
  suffices ∃ runs, opSdataBySdata op left right fuel = some (.ok (encode runs)) ∧
      Merged runs (zipWith op (expand ls) (expand rs)) by
    obtain ⟨runs, ends, merged⟩ := this
    refine ⟨encode runs, runs, ends, merged.holds ?_, merged.expands, merged.chain⟩
    rw [length_zipWith, length_expand, length_expand]
    omega
  have totals : totalOf ls = totalOf rs := by omega
  match ls, rs with
  | [], [] =>
    obtain ⟨fuel, rfl⟩ : ∃ rest, fuel = rest + 1 := ⟨fuel - 1, by omega⟩
    obtain ⟨_, _, _, _⟩ := left
    obtain ⟨_, _, _, _⟩ := right
    subst leftVals rightVals leftTotal rightTotal
    cases leftCounts
    cases rightCounts
    exact ⟨[], rfl, rfl, by simp, .nil⟩
  | [], (w, b) :: rs =>
    have positive := rightCounts.head_pos
    rw [totalOf_cons, show totalOf [] = 0 from rfl] at totals
    omega
  | (v, a) :: ls, [] =>
    have positive := leftCounts.head_pos
    rw [totalOf_cons, show totalOf [] = 0 from rfl] at totals
    omega
  | (v, a) :: ls, (w, b) :: rs =>
    obtain ⟨leftCursor, leftLoads, leftAt⟩ := Cursor.load_at leftCounts
      (show (0 : Int) + totalOf ((v, a) :: ls) = left.totalValueCount by omega)
    obtain ⟨rightCursor, rightLoads, rightAt⟩ := Cursor.load_at rightCounts
      (show (0 : Int) + totalOf ((w, b) :: rs) = left.totalValueCount by omega)
    simp only [opSdataBySdata, leftVals, rightVals, leftLoads, rightLoads, ← same, ne_eq]
    have start : Merged ([] ++ (none : Option (V × Nat)).toList) [] := ⟨rfl, by simp, .nil⟩
    exact opLoop_merged op leftAt rightAt (fun _ => rfl) start (by omega)

theorem opSdataBySdata_elementwise_threeBytes : ∃ sdata runs,
    opSdataBySdata (· + ·) ⟨2, 3, [1, 3], [254, 255]⟩ ⟨1, 3, [5], [2, 3, 0]⟩ 4 =
      some (.ok sdata) ∧ sdata.Holds runs ∧ expand runs = [6, 6, 8] ∧
        (runs.map Prod.fst).IsChain (· ≠ ·) :=
  opSdataBySdata_elementwise (· + ·) ⟨2, 3, [1, 3], [254, 255]⟩ ⟨1, 3, [5], [2, 3, 0]⟩
    [(1, 2), (3, 1)] [(5, 3)]
    ⟨rfl, rfl, by decide, rfl, .cons (by decide) rfl (by decide)
      (.cons (by decide) rfl (by decide) .nil)⟩
    ⟨rfl, rfl, by decide, rfl, .cons (by decide) rfl (by decide) .nil⟩ rfl 4 (by decide)

end Greengage.SparseVector
