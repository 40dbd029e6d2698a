import Greengage.Bitmap.Pages

/-!
Contract: what `insert_newwords` does to the words of a page.
-/

namespace Greengage.Bitmap

open Function List Greengage.Foundations

theorem getElem?_splice {α : Type} {words : List α} {pos : Nat} (lt : pos ≤ words.length)
    (new i) :
    (words.take pos ++ new ++ words.drop pos)[i]? = if i < pos then words[i]?
      else if i < pos + new.length then new[i - pos]?
      else words[i - new.length]? := by
  have len : (words.take pos).length = pos := by simp [lt]
  rw [getElem?_append, getElem?_append, length_append, len, getElem?_drop]
  by_cases pre : i < pos
  · simp [pre, show i < pos + new.length by omega]
  · split
    · rfl
    · congr 1
      omega

variable {hwords : WordArray}

theorem HeaderClean.eq_zero {used k} (clean : HeaderClean hwords used)
    (behind : used ≤ k * wordSize) : hwords k = 0 := by
  apply BitVec.eq_of_getMsbD_eq
  intro i _
  have word : (k * wordSize + i) / 64 = k := by
    simp only [wordSize]
    omega
  have bit : (k * wordSize + i) % 64 = i := by
    simp only [wordSize]
    omega
  have flag := clean (k * wordSize + i) (by omega)
  rw [isFillWord_eq, msbBit, word, bit] at flag
  simpa using flag

theorem isFillWord_setFirst (hwords) {n} (small : n < wordSize) (no) :
    isFillWord (update hwords 0 (hwords 0 ||| wordnoGetHeaderBit n)) no =
      (isFillWord hwords no || decide (no = n)) := by
  have zero : n / wordSize = 0 := Nat.div_eq_of_lt small
  rw [← isFillWord_set, zero]

variable {words left new : BMTIDBuffer} {insertPos : Nat}

/-- The state when the words from `low` on have been moved. -/
private structure Moved (words left : BMTIDBuffer) (count low : Nat)
    (state : BMTIDBuffer × BMTIDBuffer) : Prop where
  room : state.1.numCwords = words.numCwords
  curword : state.1.curword = words.curword
  leftCurword : state.2.curword = left.curword
  cwords : ∀ j, state.1.cwords j =
    if low + count ≤ j ∧ j < words.curword + count ∧ j < words.numCwords
    then words.cwords (j - count) else words.cwords j
  flags : ∀ i, isFillWord state.1.hwords i =
    (isFillWord words.hwords i && !decide (low ≤ i ∧ words.numCwords ≤ i + count))
  leftCwords : ∀ n, low ≤ n + words.numCwords - count →
    n + words.numCwords - count < words.curword →
      state.2.cwords n = words.cwords (n + words.numCwords - count)
  leftFlags : ∀ n, isFillWord state.2.hwords n = (decide (low ≤ n + words.numCwords - count) &&
      isFillWord words.hwords (n + words.numCwords - count))

section

variable {count : Nat} (gt : 0 < count) (small : count < wordSize)
  (fits : words.curword ≤ words.numCwords) (large : count ≤ words.numCwords)
include gt small fits large

private theorem moveWord_moved {low state} (below : low < words.curword)
    (moved : Moved words left count (low + 1) state) :
    Moved words left count low (moveWord count state low) := by
  have src : state.1.cwords low = words.cwords low := by
    rw [moved.cwords, if_neg (by omega)]
  have sourceFlag : isFillWord state.1.hwords low = isFillWord words.hwords low := by
    rw [moved.flags, decide_eq_false (by omega)]
    simp
  rcases lt_or_ge (low + count) words.numCwords with _ | leaves
  · have value : moveWord count state low = ({ state.1 with
        cwords := update state.1.cwords (low + count) (state.1.cwords low) }, state.2) := by
      simp only [moveWord, moved.room, show ¬ low + count ≥ words.numCwords by omega, if_false]
    rw [value]
    refine ⟨moved.room, moved.curword, moved.leftCurword, fun j => ?_, fun i => ?_, fun n => ?_,
      fun n => ?_⟩
    · simp only [update_apply, moved.cwords]
      grind
    · simp only [moved.flags]
      grind
    · intro lower upper
      exact moved.leftCwords n (by omega) upper
    · simp only [moved.leftFlags]
      grind
  · have target : low + count - words.numCwords < wordSize := by omega
    have value : moveWord count state low =
        ({ state.1 with hwords := if isFillWord words.hwords low then
            clearHeaderBit state.1.hwords low else state.1.hwords },
          { state.2 with
            cwords := update state.2.cwords (low + count - words.numCwords) (words.cwords low)
            hwords := if isFillWord words.hwords low then
                update state.2.hwords 0 (state.2.hwords 0 |||
                  wordnoGetHeaderBit (low + count - words.numCwords))
              else state.2.hwords }) := by
      simp only [moveWord, moved.room, leaves, if_true, sourceFlag, src]
      split
      · rfl
      · simp only [← moved.room]
    rw [value]
    refine ⟨moved.room, moved.curword, moved.leftCurword, fun j => ?_, fun i => ?_, fun n => ?_,
      fun n => ?_⟩
    · simp only [moved.cwords]
      grind
    · simp only [apply_ite (isFillWord · i), isFillWord_clearHeaderBit, moved.flags]
      grind
    · intro lower upper
      have := moved.leftCwords n
      grind
    · simp only [apply_ite (isFillWord · n), isFillWord_setFirst _ target, moved.leftFlags]
      grind

private theorem moveWords_moved (clean : HeaderClean words.hwords words.curword)
    (leftClean : HeaderClean left.hwords 0) {done} (le : done ≤ words.curword) :
    Moved words left count (words.curword - done) ((range done).foldl
      (fun state i => moveWord count state (words.curword - 1 - i)) (words, left)) := by
  induction done with
  | zero =>
    refine ⟨rfl, rfl, rfl, fun j => ?_, fun i => ?_, fun n => ?_, fun n => ?_⟩
    · rw [if_neg (by omega)]
      rfl
    · have clear := clean i
      grind
    · omega
    · have clear := leftClean n (Nat.zero_le n)
      have := clean (n + words.numCwords - count)
      grind
  | succ done ih =>
    rw [range_succ, foldl_append, foldl_cons, foldl_nil]
    have low : words.curword - (done + 1) = words.curword - 1 - done := by omega
    rw [low]
    apply moveWord_moved gt small fits large (by omega)
    have next : words.curword - 1 - done + 1 = words.curword - done := by omega
    rw [next]
    exact ih (by omega)

end

/-- The state when the first `done` new words have been placed. -/
private structure Placed (words left newWords : BMTIDBuffer) (insertPos done : Nat)
    (state : BMTIDBuffer × BMTIDBuffer) : Prop where
  room : state.1.numCwords = words.numCwords
  curword : state.1.curword = words.curword
  hwords : state.1.hwords = words.hwords
  leftCurword : state.2.curword = left.curword
  cwords : ∀ j, j < words.numCwords → state.1.cwords j =
    if insertPos ≤ j ∧ j < insertPos + done
    then newWords.cwords (j - insertPos) else words.cwords j
  leftCwords : ∀ n, state.2.cwords n =
    if insertPos ≤ n + words.numCwords ∧ n + words.numCwords < insertPos + done
    then newWords.cwords (n + words.numCwords - insertPos) else left.cwords n
  leftFlags : ∀ n, isFillWord state.2.hwords n = (isFillWord left.hwords n ||
    (decide (insertPos ≤ n + words.numCwords ∧ n + words.numCwords < insertPos + done) &&
      isFillWord newWords.hwords (n + words.numCwords - insertPos)))

private theorem placeWords_placed (start : insertPos ≤ words.numCwords) {done}
    (small : done < wordSize) :
    Placed words left new insertPos done
      ((range done).foldl (placeWord insertPos new) (words, left)) := by
  induction done with
  | zero =>
    refine ⟨rfl, rfl, rfl, rfl, fun j _ => ?_, fun n => ?_, fun n => ?_⟩ <;>
      simp only [range_zero] <;> grind
  | succ done ih =>
    have placed := ih (by omega)
    rw [range_succ, foldl_append, foldl_cons, foldl_nil]
    generalize (range done).foldl (placeWord insertPos new) (words, left) = state
      at placed
    rcases lt_or_ge (insertPos + done) words.numCwords with _ | leaves
    · have value : placeWord insertPos new state done = ({ state.1 with
          cwords := update state.1.cwords (insertPos + done) (new.cwords done) }, state.2) := by
        simp only [placeWord, placed.room, show ¬ insertPos + done ≥ words.numCwords by omega,
          if_false]
      rw [value]
      refine ⟨placed.room, placed.curword, placed.hwords, placed.leftCurword, fun j lt => ?_,
        fun n => ?_, fun n => ?_⟩
      · have old := placed.cwords j lt
        grind
      · simp only [placed.leftCwords]
        grind
      · simp only [placed.leftFlags]
        grind
    · have target : insertPos + done - words.numCwords < wordSize := by omega
      have value : placeWord insertPos new state done = (state.1, { state.2 with
          cwords := update state.2.cwords (insertPos + done - words.numCwords) (new.cwords done)
          hwords := if isFillWord new.hwords done then
              update state.2.hwords 0 (state.2.hwords 0 |||
                wordnoGetHeaderBit (insertPos + done - words.numCwords))
            else state.2.hwords }) := by
        simp only [placeWord, placed.room, leaves, if_true]
      rw [value]
      refine ⟨placed.room, placed.curword, placed.hwords, placed.leftCurword, fun j lt => ?_,
        fun n => ?_, fun n => ?_⟩
      · have old := placed.cwords j lt
        grind
      · have old := placed.leftCwords n
        grind
      · have old := placed.leftFlags n
        cases fill : isFillWord new.hwords done with
        | false =>
          grind
        | true =>
          simp only [if_true]
          rw [isFillWord_setFirst _ target]
          grind

private theorem isFillWord_placeHeaderBits (numCwords newHwords hwords count i) :
    isFillWord ((range count).foldl (placeHeaderBit insertPos numCwords newHwords) hwords) i =
      (isFillWord hwords i || (decide (insertPos ≤ i ∧ i < insertPos + count ∧ i < numCwords) &&
          isFillWord newHwords (i - insertPos))) := by
  induction count with
  | zero => grind
  | succ count ih =>
    rw [range_succ, foldl_append, foldl_cons, foldl_nil, placeHeaderBit]
    split
    · rw [isFillWord_set]
      grind
    · grind

/-! ### The whole routine -/

/-- The words of `words` are the first of `all`, as many as fit on a page, and
those of `left` are the others. -/
structure Spliced (words left : BMTIDBuffer) (all : List HrlWord) : Prop where
  kept : bufWords words = all.take numOfHrlWordsPerPage
  clear : ∀ i, words.curword ≤ i → i < numOfHrlWordsPerPage → isFillWord words.hwords i = false
  rest : bufWords left = all.drop numOfHrlWordsPerPage
  restClean : HeaderClean left.hwords left.curword

private theorem wordsOf_copy (hwords cwords src) :
    wordsOf (copyWords hwords 0 src.hwords (calcHWords src.curword))
      (copyWords cwords 0 src.cwords src.curword) src.curword = bufWords src := by
  apply wordsOf_congr
  · intro i below
    have lt : i / wordSize < calcHWords src.curword := by
      simp only [calcHWords, wordSize]
      split <;> omega
    rw [isFillWord_copyWords, if_pos lt]
  · intro i below
    simp [copyWords, below]

private theorem headerClean_copy {src : BMTIDBuffer} (clean : HeaderClean hwords 0)
    (sourceClean : HeaderClean src.hwords src.curword) :
    HeaderClean (copyWords hwords 0 src.hwords (calcHWords src.curword)) src.curword := by
  intro i ge
  rw [isFillWord_copyWords]
  split
  · exact sourceClean i ge
  · exact clean i (Nat.zero_le i)

section

variable (room : words.numCwords = numOfHrlWordsPerPage)
  (fits : words.curword ≤ numOfHrlWordsPerPage) (lt : insertPos ≤ words.curword)
  (clean : HeaderClean words.hwords words.curword) (gt : 0 < new.curword)
  (small : new.curword < wordSize)
include room fits lt clean gt small

/-- The branch of `insert_newwords` that moves words. -/
private theorem insertNewwords_moves (ne : words.curword ≠ 0)
    (notFull : insertPos ≠ words.numCwords) :
    Spliced (insertNewwords words insertPos new left).1 (insertNewwords words insertPos new left).2
      ((bufWords words).take insertPos ++ bufWords new ++ (bufWords words).drop insertPos) :=
        by
  have := numOfHrlWordsPerPage_eq
  have word : wordSize = 64 := rfl
  simp only [insertNewwords, ne, if_false, notFull]
  obtain ⟨leftCount, leftDef⟩ := @exists_eq _ (if words.curword + new.curword > words.numCwords
    then words.curword + new.curword - words.numCwords else 0)
  have leftValue : leftCount = words.curword + new.curword - numOfHrlWordsPerPage := by
    rw [leftDef]
    split <;> omega
  rw [← leftDef]
  have moved := @moveWords_moved words { left with curword := leftCount, hwords := fun _ => 0 }
    new.curword gt small (by omega) (by omega) clean (fun i _ => isFillWord_zero i)
    (words.curword - insertPos) (by omega)
  generalize (range (words.curword - insertPos)).foldl _ _ = state at moved
  have placed := @placeWords_placed state.1 state.2 new insertPos
    (by rw [moved.room]; omega) new.curword small
  generalize (range new.curword).foldl (placeWord insertPos new) _ = placedState
    at placed
  have flags : ∀ i, i < numOfHrlWordsPerPage → isFillWord ((range new.curword).foldl
      (placeHeaderBit insertPos placedState.1.numCwords new.hwords)
        (shiftHeaderBits placedState.1.hwords words.curword numOfHeaderWords insertPos
          new.curword)) i =
      if i < insertPos then isFillWord words.hwords i
      else if i < insertPos + new.curword then isFillWord new.hwords (i - insertPos)
      else isFillWord words.hwords (i - new.curword) := by
    intro i below
    have movedClean : HeaderClean state.1.hwords words.curword := by
      intro j ge
      rw [moved.flags, clean j ge, Bool.false_and]
    rw [isFillWord_placeHeaderBits, placed.hwords, isFillWord_shiftHeaderBits gt small lt
      (by omega) (fun k behind => movedClean.eq_zero (by simp only [word] at *; omega))
      (by rw [numOfHeaderWords_eq, word]; omega), placed.room, moved.room, room, moved.flags,
      moved.flags, room]
    grind
  have splice := @getElem?_splice HrlWord (bufWords words) insertPos
    (by rw [bufWords, length_wordsOf]; exact lt) (bufWords new)
  simp only [bufWords, getElem?_wordsOf, length_wordsOf] at splice
  refine ⟨ext_getElem? fun i => ?_, fun i ge below => ?_, ext_getElem? fun i => ?_,
    fun i ge => ?_⟩
  · rw [getElem?_take, bufWords, bufWords, bufWords, getElem?_wordsOf, splice]
    have contents := placed.cwords i
    rw [moved.cwords] at contents
    rw [moved.room, room] at contents
    grind
  · have ge : words.curword + (new.curword - leftCount) ≤ i := ge
    rw [flags i below, if_neg (by omega), if_neg (by omega), clean _ (by omega)]
  · rw [getElem?_drop, bufWords, bufWords, bufWords, getElem?_wordsOf, splice,
      placed.leftCurword, moved.leftCurword, placed.leftCwords, placed.leftFlags, moved.leftFlags,
      moved.room, room]
    have contents := moved.leftCwords i
    grind
  · rw [placed.leftCurword, moved.leftCurword] at ge
    have ge : leftCount ≤ i := ge
    rw [placed.leftFlags, moved.leftFlags, moved.room, room, clean _ (by omega), Bool.and_false,
      decide_eq_false (by omega), Bool.false_and, Bool.false_or]

/-- `insert_newwords` puts the new words at the insert position. -/
theorem insertNewwords_spec (newClean : HeaderClean new.hwords new.curword)
    (leftClean : HeaderClean left.hwords 0) :
    Spliced (insertNewwords words insertPos new left).1 (insertNewwords words insertPos new left).2
      ((bufWords words).take insertPos ++ bufWords new ++ (bufWords words).drop insertPos) :=
        by
  have := numOfHrlWordsPerPage_eq
  by_cases empty : words.curword = 0
  · have none : bufWords words = [] := by rw [bufWords, empty]; rfl
    have len : (bufWords new).length ≤ numOfHrlWordsPerPage := by
      simp only [bufWords, length_wordsOf, wordSize] at *
      omega
    simp only [insertNewwords, empty, none, take_nil, drop_nil, nil_append, append_nil]
    rw [empty] at clean
    refine ⟨?_, fun i ge _ => headerClean_copy clean newClean i ge, ?_, leftClean⟩
    · rw [take_of_length_le len]
      exact wordsOf_copy words.hwords words.cwords new
    · rw [drop_of_length_le len]
      rfl
  · by_cases full : insertPos = words.numCwords
    · have all : (bufWords words).length = insertPos := by
        rw [bufWords, length_wordsOf]
        omega
      simp only [insertNewwords, empty, if_false, full, if_true]
      rw [← full, ← all, take_length, drop_length, append_nil]
      refine ⟨?_, fun i (ge : words.curword ≤ i) below => by omega, ?_, ?_⟩
      · rw [take_append_of_le_length (by omega), take_of_length_le (by omega)]
      · rw [drop_append_of_le_length (by omega), drop_of_length_le (by omega), nil_append]
        exact wordsOf_copy left.hwords left.cwords new
      · exact headerClean_copy leftClean newClean
    · exact insertNewwords_moves room fits lt clean gt small empty full

end

theorem wordsOf_copyHeader (target hwords cwords used) :
    wordsOf (copyWords target 0 hwords (calcHWords used)) cwords used =
      wordsOf hwords cwords used := by
  refine wordsOf_congr (fun i below => ?_) fun _ _ => rfl
  rw [isFillWord_copyWords, if_pos]
  simp only [calcHWords, wordSize]
  split <;> omega

theorem pageBuffer_words (page) : bufWords (pageBuffer page) = pageWords page :=
  wordsOf_copyHeader _ page.hwords page.cwords page.hrlWordsUsed

variable {page : BMBitmapPage}

theorem pageBuffer_clean (clean : HeaderClean page.hwords page.hrlWordsUsed) :
    HeaderClean (pageBuffer page).hwords page.hrlWordsUsed := by
  intro i ge
  rw [pageBuffer, isFillWord_copyWords]
  split
  · exact clean i ge
  · exact isFillWord_zero i

theorem storeBuffer_words (page words) : pageWords (storeBuffer page words) = bufWords words :=
  wordsOf_copyHeader page.hwords words.hwords words.cwords words.curword

theorem storeBuffer_clean {words} (clean : HeaderClean page.hwords page.hrlWordsUsed)
    (grown : page.hrlWordsUsed ≤ words.curword) (fits : words.curword ≤ numOfHrlWordsPerPage)
    (clear : ∀ i, words.curword ≤ i → i < numOfHrlWordsPerPage →
      isFillWord words.hwords i = false) :
    HeaderClean (storeBuffer page words).hwords words.curword := by
  intro i ge
  rw [storeBuffer, isFillWord_copyWords]
  split
  case isTrue copied =>
    apply clear i ge
    -- a page ends with a full header word
    simp only [calcHWords, wordSize, numOfHrlWordsPerPage_eq] at *
    split at copied <;> omega
  case isFalse kept => exact clean i (by omega)

theorem isFillWord_dropFirst {count} (clean : HeaderClean hwords count) (small : count ≤ wordSize)
    (i) : isFillWord (update hwords 0 (hwords 0 <<< 1)) i = isFillWord hwords (i + 1) := by
  have word : wordSize = 64 := rfl
  rcases lt_or_ge i 64 with _ | _
  · have zero : i / 64 = 0 := by omega
    have bit : i % 64 = i := by omega
    rw [isFillWord_eq, msbBit, zero, bit, update_self, BitVec.getMsbD_shiftLeft]
    rcases lt_or_ge (i + 1) 64 with _ | _
    · have zero : (i + 1) / 64 = 0 := by omega
      have bit : (i + 1) % 64 = i + 1 := by omega
      rw [isFillWord_eq, msbBit, zero, bit]
    · rw [clean (i + 1) (by omega), BitVec.getMsbD_of_ge _ _ (by omega)]
  · have notFirst : i / 64 ≠ 0 := by omega
    have same : isFillWord (update hwords 0 (hwords 0 <<< 1)) i = isFillWord hwords i := by
      rw [isFillWord_eq, isFillWord_eq]
      exact msbBit_congr (update_of_ne notFirst _ _)
    rw [same, clean i (by omega), clean (i + 1) (by omega)]

end Greengage.Bitmap
