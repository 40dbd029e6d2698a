import Greengage.Bitmap.Vector

/-!
Contract: a batch of compressed words catches up with the next tid of a scan.

Owns: what the loop leaves of the batch, and when the words that are left stand for the
bits from the next tid on.

The words of a batch are those from `lastScanWordNo` on, and `nwords` is their number. A
tid is far below the range of its machine type.
-/

namespace Greengage.Bitmap

open List

/-- `BMBatchWords` with the position of its `BMIterateResult`. -/
structure BatchScan where
  words : List HrlWord
  firstTid : Nat
  nextTid : Nat
  lastScanWordNo : Nat

namespace BatchScan

/-- The word at `lastScanWordNo` has been read. -/
def pass (scan : BatchScan) : BatchScan :=
  { scan with words := scan.words.tail, lastScanWordNo := scan.lastScanWordNo + 1 }

/-- The loop of `_bitmap_catchup_to_next_tid`. -/
def catchup : List HrlWord → BatchScan → BatchScan
  | [], scan => scan
  | word :: rest, scan =>
    if scan.firstTid ≥ scan.nextTid then scan
    else if word.fill then
      if word.word = 0 then
        let firstTid := scan.firstTid + wordSize
        catchup rest { scan.pass with firstTid, nextTid := max scan.nextTid firstTid }
      else
        let fillToUse := min ((scan.nextTid - scan.firstTid) / wordSize + 1) (fillLength word.word)
        let firstTid := scan.firstTid + fillToUse * wordSize
        if fillLength word.word - fillToUse = 0 then catchup rest { scan.pass with firstTid }
        -- more than the distance has been used, so that `firstTid` is not below `nextTid`
        else
          { scan with words := ⟨true, word.word - BitVec.ofNat 64 fillToUse⟩ :: rest, firstTid }
    else catchup rest { scan.pass with firstTid := scan.firstTid + wordSize }

def catchupToNextTid (scan : BatchScan) : BatchScan := catchup scan.words scan

end BatchScan

/-- How many words a word stands for. -/
def HrlWord.count (word : HrlWord) : Nat := if word.fill then fillLength word.word else 1

/-- The uncompressed word of a number is in a fill word, and not its first one. -/
def insideFill : List HrlWord → Nat → Bool
  | [], _ => false
  | word :: rest, number =>
    if number < word.count then 0 < number else insideFill rest (number - word.count)

/-- A fill of which `used` words are taken. -/
theorem bits_sub_fill {word used} (le : used ≤ fillLength word) :
    HrlWord.bits ⟨true, word - BitVec.ofNat 64 used⟩ =
      (HrlWord.bits ⟨true, word⟩).drop (used * wordSize) := by
  have lengths := fillLength_eq word
  have sub : (word - BitVec.ofNat 64 used).toNat = word.toNat - used := by
    rw [BitVec.toNat_sub, BitVec.toNat_ofNat]
    omega
  have sameBit : getFillBit (word - BitVec.ofNat 64 used) = getFillBit word := by
    apply BitVec.eq_of_toNat_eq
    rw [getFillBit_toNat, getFillBit_toNat, sub]
    omega
  have len : fillLength (word - BitVec.ofNat 64 used) = fillLength word - used := by
    rw [fillLength_eq, sub, lengths]
    omega
  simp only [HrlWord.bits, if_true, sameBit, len, drop_replicate, Nat.sub_mul]

theorem HrlWord.length_bits_count (word : HrlWord) : word.bits.length = word.count * wordSize := by
  rw [HrlWord.length_bits, HrlWord.count]
  split <;> simp

namespace BatchScan

theorem catchup_of_le (words) {scan} (le : scan.nextTid ≤ scan.firstTid) :
    catchup words scan = scan := by
  cases words with
  | nil => rfl
  | cons word rest => exact if_pos le

section

variable {scan : BatchScan} {distance : Nat} {word : HrlWord} {rest : List HrlWord}
  (gap : scan.nextTid = scan.firstTid + (distance + 1) * wordSize) (pos : word.Positive)
include gap pos

theorem catchup_fill (isFill : word.fill) : catchup (word :: rest) scan =
    let fillToUse := min (distance + 2) (fillLength word.word)
    let firstTid := scan.firstTid + fillToUse * wordSize
    if fillLength word.word - fillToUse = 0 then catchup rest { scan.pass with firstTid }
    else { scan with words := ⟨true, word.word - BitVec.ofNat 64 fillToUse⟩ :: rest, firstTid } := by
  have behind : ¬ scan.firstTid ≥ scan.nextTid := by
    rw [gap, wordSize]
    omega
  have used : (scan.nextTid - scan.firstTid) / wordSize + 1 = distance + 2 := by
    rw [gap, Nat.add_sub_cancel_left, Nat.mul_div_cancel _ (by decide)]
  have nonzero : ¬ word.word = 0 := by
    intro zero
    have := pos isFill
    rw [zero] at this
    exact absurd this (by decide)
  rw [catchup, if_neg behind, used, if_pos isFill, if_neg nonzero]

theorem catchup_cons (le : word.count ≤ distance + 1) : catchup (word :: rest) scan =
    catchup rest { scan.pass with firstTid := scan.firstTid + word.count * wordSize } := by
  cases isFill : word.fill with
  | false =>
    have behind : ¬ scan.firstTid ≥ scan.nextTid := by
      rw [gap, wordSize]
      omega
    simp [catchup, if_neg behind, isFill, HrlWord.count]
  | true =>
    simp only [HrlWord.count, isFill, if_true] at le ⊢
    have all : min (distance + 2) (fillLength word.word) = fillLength word.word := by omega
    simp only [catchup_fill gap pos isFill, all, Nat.sub_self, if_true]

/-- Inside a fill the word at the next tid is taken as well. -/
theorem catchup_inside (inside : distance + 1 < word.count) (wordsDef : scan.words = word :: rest) :
    expand (catchup (word :: rest) scan).words =
        (expand (word :: rest)).drop ((distance + 2) * wordSize) ∧
      scan.nextTid ≤ (catchup (word :: rest) scan).firstTid := by
  have isFill : word.fill := by
    by_contra literal
    simp [HrlWord.count, literal] at inside
  have len := word.length_bits_count
  simp only [HrlWord.count, isFill, if_true] at inside len
  have reached : scan.nextTid ≤ scan.firstTid + (distance + 2) * wordSize := by
    rw [gap]
    exact Nat.add_le_add_left (Nat.mul_le_mul_right _ (by omega)) _
  have shorter : (distance + 2) * wordSize ≤ word.bits.length := by
    rw [len]
    exact Nat.mul_le_mul_right _ inside
  have some : min (distance + 2) (fillLength word.word) = distance + 2 := by omega
  simp only [catchup_fill gap pos isFill, some]
  rw [expand_cons, drop_append_of_le_length shorter]
  split
  · next used =>
    have whole : word.bits.length ≤ (distance + 2) * wordSize := by
      rw [len]
      exact Nat.mul_le_mul_right _ (by omega)
    rw [catchup_of_le _ reached, drop_of_length_le whole]
    exact ⟨by rw [pass, wordsDef]; rfl, reached⟩
  · have whole : word = ⟨true, word.word⟩ := by rw [← isFill]
    refine ⟨?_, reached⟩
    rw [expand_cons, bits_sub_fill inside, ← whole]

end

theorem catchup_spec {words scan distance} (pos : ∀ word ∈ words, word.Positive)
    (wordsDef : scan.words = words) (gap : scan.nextTid = scan.firstTid + distance * wordSize) :
    expand (catchup words scan).words = (expand words).drop
        ((distance + (insideFill words distance).toNat) * wordSize) ∧
      (insideFill words distance → scan.nextTid ≤ (catchup words scan).firstTid) := by
  induction words generalizing scan distance with
  | nil => simp [catchup, wordsDef, insideFill]
  | cons word rest ih =>
    obtain ⟨first, later⟩ := forall_mem_cons.mp pos
    cases distance with
    | zero =>
      have start : insideFill (word :: rest) 0 = false := by
        have reach : 0 < word.count := by
          unfold HrlWord.count
          split
          · exact first ‹_›
          · exact Nat.one_pos
        simp [insideFill, reach]
      simp [catchup_of_le _ (show scan.nextTid ≤ scan.firstTid by omega), wordsDef, start]
    | succ distance =>
      rw [insideFill]
      split
      · next inside =>
        have result := catchup_inside gap first inside wordsDef
        simpa using result
      · next reach =>
        obtain ⟨further, split⟩ := Nat.exists_eq_add_of_le (Nat.le_of_not_lt reach)
        rw [catchup_cons gap first (by omega), split, Nat.add_sub_cancel_left, Nat.add_assoc,
          add_mul, ← word.length_bits_count, expand_cons, drop_length_add_append]
        rw [split, add_mul, ← word.length_bits_count, ← Nat.add_assoc] at gap
        exact ih later (by rw [pass, wordsDef, tail_cons]) gap

end BatchScan

/-- The tids of the set bits, for the tid of the first one. -/
def tidsFrom (tid : Nat) (bits : List Bool) : Set Nat :=
  {other | tid ≤ other ∧ bitsAt bits (other - tid) = true}

theorem mem_tidsFrom_drop {tid off bits other} : other ∈ tidsFrom tid (bits.drop off) ↔
    tid ≤ other ∧ other + off ∈ tidsFrom tid bits := by
  simp only [tidsFrom, bitsAt, getElem?_drop, Set.mem_ofPred_eq]
  refine and_congr_right fun le => ?_
  rw [show off + (other - tid) = other + off - tid by omega, and_iff_right (by omega)]

theorem tidsFrom_drop (tid off bits) : tidsFrom (tid + off) (bits.drop off) =
      {other ∈ tidsFrom tid bits | tid + off ≤ other} := by
  ext other
  simp only [tidsFrom, bitsAt, getElem?_drop]
  constructor
  · rintro ⟨le, set⟩
    rw [show off + (other - (tid + off)) = other - tid by omega] at set
    exact ⟨⟨by omega, set⟩, le⟩
  · rintro ⟨⟨-, set⟩, le⟩
    exact ⟨le, by rwa [show off + (other - (tid + off)) = other - tid by omega]⟩

/-- The bits behind the first ones denote the same tids only if there are none: every tid
would be followed by another one. -/
theorem tidsFrom_drop_eq_self_iff {tid off bits} (pos : 0 < off) :
    tidsFrom tid (bits.drop off) = tidsFrom tid bits ↔ tidsFrom tid bits = ∅ := by
  constructor
  · intro same
    have again : ∀ times, ∀ other ∈ tidsFrom tid bits,
        other + times * off ∈ tidsFrom tid bits := by
      intro times
      induction times with
      | zero => simp
      | succ times ih =>
        intro other mem
        rw [Nat.succ_mul, ← Nat.add_assoc]
        exact (mem_tidsFrom_drop.mp (same ▸ ih other mem)).2
    refine Set.eq_empty_of_forall_notMem fun other mem => ?_
    have set := (again (tid + bits.length) other mem).2
    have long : bits.length ≤ other + (tid + bits.length) * off - tid := by
      have := Nat.le_mul_of_pos_right (tid + bits.length) pos
      omega
    rw [bitsAt, getElem?_eq_none long] at set
    cases set
  · intro none
    rw [none]
    refine Set.eq_empty_of_forall_notMem fun other mem => ?_
    have further := (mem_tidsFrom_drop.mp mem).2
    rw [none] at further
    exact further

/-- A batch of words, none of them an empty fill. -/
structure Batch where
  words : List HrlWord
  positive : ∀ word ∈ words, word.Positive

namespace Batch

/-- The words that are left when a batch has caught up with a tid a number of words behind its
first one are read from this tid on. -/
def CatchesUp (batch : Batch) (lastScanWordNo firstTid distance : Nat) : Prop :=
  let nextTid := firstTid + distance * wordSize
  let after := BatchScan.catchupToNextTid ⟨batch.words, firstTid, nextTid, lastScanWordNo⟩
  after.words = [] ∧ after.firstTid < nextTid ∨
    tidsFrom nextTid (expand after.words) =
      {tid ∈ tidsFrom firstTid (expand batch.words) | nextTid ≤ tid}

/-- A batch catches up exactly if the next tid is not inside a fill, or no set bit is left. -/
theorem catchesUp_iff (batch : Batch) (lastScanWordNo firstTid distance : Nat) :
    batch.CatchesUp lastScanWordNo firstTid distance ↔
      insideFill batch.words distance = false ∨
        ∀ tid ∈ tidsFrom firstTid (expand batch.words), tid < firstTid + distance * wordSize := by
  obtain ⟨words, reached⟩ := @BatchScan.catchup_spec batch.words
    ⟨batch.words, firstTid, firstTid + distance * wordSize, lastScanWordNo⟩ distance
    batch.positive rfl rfl
  simp only [CatchesUp, BatchScan.catchupToNextTid, words, ← tidsFrom_drop]
  cases inside : insideFill batch.words distance with
  | false => simp
  | true =>
    rw [inside] at reached
    rw [Bool.toNat_true, add_mul, one_mul, ← drop_drop, tidsFrom_drop_eq_self_iff (by decide),
      tidsFrom_drop]
    simp only [Set.sep_eq_empty_iff_mem_false, not_le, Bool.true_eq_false, false_or]
    exact or_iff_right fun left => absurd left.2 (not_lt.mpr (reached rfl))

/-- A fill of ones for two words. -/
def twoOnes : Batch := ⟨[⟨true, makeFillWord 1 2⟩], by simp [HrlWord.Positive]; decide⟩

/-- From its second word on, a fill is shortened by one word too many. -/
theorem catchesUp_fails : ¬ twoOnes.CatchesUp 0 1 1 := by
  rintro (⟨-, behind⟩ | same)
  · exact absurd behind (by decide +kernel)
  · have set : 65 ∈ {tid ∈ tidsFrom 1 (expand twoOnes.words) | 65 ≤ tid} :=
      ⟨⟨by decide, by decide +kernel⟩, le_rfl⟩
    exact absurd (same.symm ▸ set : 65 ∈ tidsFrom 65 _).2 (by decide +kernel)

end Batch

end Greengage.Bitmap
