import Greengage.Rebalance.Mirrors
import Greengage.Rebalance.PlanParts

/-!
Contract: the plan of a rebalance can be carried out safely.

A mirror that goes to the host of its primary crosses it. Each of the three orders gives a plan
in three parts: without a crossing the mirrors go first; when no primary goes to the host of
its mirror, the mirrors that cross wait until the primaries have left; otherwise the mirrors
that cross leave first for a third host, and go on when the primaries have left.
-/

namespace Greengage.Rebalance

open Option List LogicalMove Segment

open Foundations (bind_eq_ok exists_of_forall₂ map_eq_of_forall₂)

variable {segments : Nat} {planner : Planner segments}
  {solution sol : Placement segments planner.targetCount} {moves sub : List (LogicalMove segments)}
  {move : LogicalMove segments} {role : Role} {content cid : Fin segments}

theorem LogicalMove.role_eq_mirror : move.role = .mirror ↔ move.seg.isSegmentMirror = true := by
  unfold role
  split_ifs with mir <;> simp [mir]

theorem LogicalMove.role_eq_primary : move.role = .primary ↔ move.seg.isSegmentMirror = false := by
  unfold role
  split_ifs with mir <;> simp [mir]

/-! ### The planned moves -/

section

open Planner

variable (planned : Planned planner sol planner.segDbList moves)
include planned

section

variable (isIn : move ∈ moves)
include isIn

theorem seg_eq : move.seg = planner.db move.seg.content move.role := by
  have lt : move.seg ∈ moves.map seg := mem_map_of_mem isIn
  rw [planned.segs] at lt
  obtain ⟨_, role, is⟩ := exists_of_mem_segDbList (mem_filter.mp lt).1
  have roleIs : move.role = role := by
    unfold LogicalMove.role isSegmentMirror
    rw [is, planner.preferredRole_db]
    cases role with
    | primary => rfl
    | mirror => rfl
  rw [roleIs, is, planner.content_db]

theorem preferredRole_eq : move.seg.preferredRole = move.role := by
  rw [seg_eq planned isIn, planner.preferredRole_db]

theorem dstHost_eq : move.dstHost.hostname = planner.assigned sol move.seg.content move.role := by
  rw [planned.target move isIn, preferredRole_eq planned isIn]

theorem away : (planner.db move.seg.content move.role).hostname ≠
      planner.assigned sol move.seg.content move.role := by
  have lt : move.seg ∈ moves.map seg := mem_map_of_mem isIn
  rw [planned.segs] at lt
  have ne := of_decide_eq_true (mem_filter.mp lt).2
  rwa [preferredRole_eq planned isIn, congrArg hostname (seg_eq planned isIn)]
    at ne

end

theorem exists_move (ne : (planner.db cid role).hostname ≠ planner.assigned sol cid role) :
    ∃ move ∈ moves, move.seg.content = cid ∧ move.role = role := by
  have lt : planner.db cid role ∈ moves.map seg := by
    rw [planned.segs, mem_filter, planner.content_db, planner.preferredRole_db]
    exact ⟨mem_segDbList cid role, decide_eq_true ne⟩
  obtain ⟨move, isIn, is⟩ := mem_map.mp lt
  have same := db_injective ((seg_eq planned isIn).symm.trans is)
  exact ⟨move, isIn, same.1, same.2⟩

variable {other : LogicalMove segments}

theorem segs_nodup : (moves.map seg).Nodup := by
  rw [planned.segs]
  exact segDbList_nodup.filter _

theorem move_unique (isIn : move ∈ moves) (otherMem : other ∈ moves)
    (sameContent : move.seg.content = other.seg.content) (sameRole : move.role = other.role) :
    move = other := by
  apply inj_on_of_nodup_map (segs_nodup planned) isIn otherMem
  rw [seg_eq planned isIn, seg_eq planned otherMem, sameContent, sameRole]

theorem move_eq_of_dbid (isIn : move ∈ moves) (otherMem : other ∈ moves)
    (same : move.seg.dbid = other.seg.dbid) : move = other := by
  rw [seg_eq planned isIn, seg_eq planned otherMem] at same
  have both := planner.dbid_injective _ _ _ _ same
  exact move_unique planned isIn otherMem both.1 both.2

theorem planPart_of_sublist (settled : ∀ cid role, (planner.db cid role).role = role)
    (some_ : sub.Sublist moves) (kind : ∀ move ∈ sub, move.role = role) : PlanPart role sub where
  kind := kind
  current move isIn := by
    rw [seg_eq planned (some_.subset isIn), settled, kind move isIn]
  once := by
    refine Nodup.map_on ?_ ((Nodup.of_map _ (segs_nodup planned)).sublist some_)
    intro move isIn other otherMem same
    exact move_unique planned (some_.subset isIn) (some_.subset otherMem) same
      ((kind move isIn).trans (kind other otherMem).symm)

/-- A part that has all planned moves of a content in its role brings the segment where it
should be. -/
theorem hostAfter_planned (part : PlanPart role sub)
    (lt : ∀ move ∈ sub, move.seg.content = cid → move ∈ moves)
    (all : ∀ move ∈ moves, move.seg.content = cid → move.role = role → move ∈ sub) :
    hostAfter sub cid (planner.db cid role).hostname = planner.assigned sol cid role := by
  by_cases stays : (planner.db cid role).hostname = planner.assigned sol cid role
  · rw [hostAfter_of_not_mem, stays]
    intro move isIn same
    have ne := away planned (lt move isIn same)
    rw [same, part.kind move isIn] at ne
    exact ne stays
  · obtain ⟨move, isIn, rfl, rfl⟩ := exists_move planned stays
    rw [hostAfter_of_mem part (all move isIn rfl rfl), dstHost_eq planned isIn]

/-- A part that has all planned moves of some contents in its role moves only these. -/
theorem hostAfter_chosen (part : PlanPart role sub) (chosen : Fin segments → Prop)
    (mem : ∀ move, move ∈ sub ↔ move ∈ moves ∧ move.role = role ∧ chosen move.seg.content) (cid) :
    (chosen cid → hostAfter sub cid (planner.db cid role).hostname =
      planner.assigned sol cid role) ∧ (¬ chosen cid → ∀ host, hostAfter sub cid host = host) := by
  constructor
  · intro now
    exact hostAfter_planned planned part (fun move isIn _ => ((mem move).mp isIn).1)
      fun move isIn same is => (mem move).mpr ⟨isIn, is, same ▸ now⟩
  · intro never
    exact hostAfter_of_not_mem fun move isIn same => never (same ▸ ((mem move).mp isIn).2.2)

end

/-! ### Pairs of moves -/

/-- The moves of the primary and of the mirror of one content. -/
structure PairOf (moves : List (LogicalMove segments)) (primMove mirMove : LogicalMove segments) :
    Prop where
  primMem : primMove ∈ moves
  mirMem : mirMove ∈ moves
  content : mirMove.seg.content = primMove.seg.content
  primRole : primMove.role = .primary
  mirRole : mirMove.role = .mirror

/-- Pairs of moves, once for each content of which both segments move and that has the
property. -/
structure PairsFor (moves : List (LogicalMove segments))
    (pairs : List (LogicalMove segments × LogicalMove segments))
    (holds : Fin segments → Prop) : Prop where
  mem : ∀ pair, pair ∈ pairs ↔ PairOf moves pair.1 pair.2 ∧ holds pair.1.seg.content
  once : (pairs.map fun pair => pair.1.seg.content).Nodup

section

variable (unique : ∀ move ∈ moves, ∀ other ∈ moves, move.seg.content = other.seg.content →
  move.role = other.role → move = other)
include unique

theorem moveOf_eq_some {isMirror} : moveOf moves cid isMirror = some move ↔
      move ∈ moves ∧ move.seg.content = cid ∧ move.seg.isSegmentMirror = isMirror := by
  unfold moveOf
  constructor
  · intro found
    have holds := find?_some found
    simp only [decide_eq_true_eq] at holds
    exact ⟨mem_reverse.mp (mem_of_find?_eq_some found), holds⟩
  · rintro ⟨isIn, sameContent, sameRole⟩
    cases found : moves.reverse.find? fun move =>
        move.seg.content = cid ∧ move.seg.isSegmentMirror = isMirror with
    | none =>
      have none := find?_eq_none.mp found move (mem_reverse.mpr isIn)
      simp [sameContent, sameRole] at none
    | some other =>
      have holds := find?_some found
      simp only [decide_eq_true_eq] at holds
      have otherMem := mem_reverse.mp (mem_of_find?_eq_some found)
      have equal := unique other otherMem move isIn (holds.1.trans sameContent.symm)
        (by rw [LogicalMove.role, LogicalMove.role, holds.2, sameRole])
      rw [equal]

theorem pairsFor_movedPairs : PairsFor moves (movedPairs moves) fun _ => True := by
  have isIn (cid pair) : (do
        let primMove ← moveOf moves cid false
        let mirMove ← moveOf moves cid true
        return (primMove, mirMove)) = some pair ↔
      PairOf moves pair.1 pair.2 ∧ pair.1.seg.content = cid := by
    simp only [bind, bind_eq_some_iff, pure, some.injEq, moveOf_eq_some unique]
    constructor
    · rintro ⟨primMove, ⟨primMem, rfl, isPrim⟩, mirMove, ⟨mirMem, same, isMirror⟩, rfl⟩
      exact ⟨⟨primMem, mirMem, same, role_eq_primary.mpr isPrim,
        role_eq_mirror.mpr isMirror⟩, rfl⟩
    · rintro ⟨pairOf, rfl⟩
      exact ⟨pair.1, ⟨pairOf.primMem, rfl, role_eq_primary.mp pairOf.primRole⟩,
        pair.2, ⟨pairOf.mirMem, pairOf.content, role_eq_mirror.mp pairOf.mirRole⟩,
        rfl⟩
  constructor
  · intro pair
    unfold movedPairs
    simp only [mem_filterMap, isIn, and_true]
    constructor
    · rintro ⟨_, _, pairOf, _⟩
      exact pairOf
    · intro pairOf
      refine ⟨_, ?_, pairOf, rfl⟩
      simp only [movedContents, mem_reverse, mem_dedup]
      exact mem_map_of_mem pairOf.primMem
  · have contents : (movedContents moves).Nodup :=
      nodup_reverse.mpr (nodup_dedup _)
    unfold movedPairs
    rw [map_filterMap]
    refine contents.filterMap fun cid other found first snd => ?_
    simp only [mem_def, map_eq_some_iff, isIn] at first snd
    obtain ⟨_, ⟨_, rfl⟩, rfl⟩ := first
    obtain ⟨_, ⟨_, is⟩, same⟩ := snd
    exact same.symm.trans is

end

variable {holds : Fin segments → Prop} {pairs : List (LogicalMove segments × LogicalMove segments)}

theorem PairsFor.filter (ok : PairsFor moves pairs holds) (also : Fin segments → Prop)
    (test : LogicalMove segments × LogicalMove segments → Bool)
    (tests : ∀ pair, PairOf moves pair.1 pair.2 → (test pair = true ↔ also pair.1.seg.content)) :
    PairsFor moves (pairs.filter test) fun cid => holds cid ∧ also cid where
  mem pair := by
    rw [mem_filter, ok.mem]
    constructor
    · rintro ⟨⟨pairOf, first⟩, passed⟩
      exact ⟨pairOf, first, (tests pair pairOf).mp passed⟩
    · rintro ⟨pairOf, first, snd⟩
      exact ⟨⟨pairOf, first⟩, (tests pair pairOf).mpr snd⟩
  once := ok.once.sublist (filter_sublist.map _)

theorem mem_dbidsOf (planned : Planner.Planned planner sol planner.segDbList moves)
    (ok : PairsFor moves pairs holds) (isIn : move ∈ moves) :
    move.seg.dbid ∈ dbidsOf pairs ↔ ∃ pair ∈ pairs, pair.1.seg.content = move.seg.content := by
  simp only [dbidsOf, mem_flatMap, mem_cons, not_mem_nil, or_false]
  constructor
  · rintro ⟨pair, pairMem, same⟩
    have pairOf := ((ok.mem pair).mp pairMem).1
    refine ⟨pair, pairMem, ?_⟩
    rcases same with same | same
    · rw [move_eq_of_dbid planned isIn pairOf.primMem same]
    · rw [move_eq_of_dbid planned isIn pairOf.mirMem same, pairOf.content]
  · rintro ⟨pair, pairMem, same⟩
    have pairOf := ((ok.mem pair).mp pairMem).1
    refine ⟨pair, pairMem, ?_⟩
    cases roleIs : move.role with
    | primary =>
      left
      rw [move_unique planned isIn pairOf.primMem same.symm (roleIs.trans pairOf.primRole.symm)]
    | mirror =>
      right
      rw [move_unique planned isIn pairOf.mirMem (same.symm.trans pairOf.content.symm)
        (roleIs.trans pairOf.mirRole.symm)]

/-! ### Crossings -/

def Crossing (planner : Planner segments) (solution : Placement segments planner.targetCount)
    (content : Fin segments) : Prop :=
  planner.assigned solution content .mirror = (planner.db content .primary).hostname

def Returning (planner : Planner segments) (solution : Placement segments planner.targetCount)
    (content : Fin segments) : Prop :=
  planner.assigned solution content .primary = (planner.db content .mirror).hostname

/-- The mirror goes to the host of the primary, and both move. -/
structure Crosses (planner : Planner segments) (solution : Placement segments planner.targetCount)
    (content : Fin segments) : Prop where
  apart : (planner.db content .primary).hostname ≠ (planner.db content .mirror).hostname
  moves : (planner.db content .primary).hostname ≠ planner.assigned solution content .primary
  crossing : Crossing planner solution content

section

variable (planned : Planner.Planned planner sol planner.segDbList moves)
include planned

variable {primMove mirMove : LogicalMove segments}

theorem primHostname (pairOf : PairOf moves primMove mirMove) :
    primMove.seg.hostname = (planner.db primMove.seg.content .primary).hostname := by
  rw [← pairOf.primRole]
  exact congrArg hostname (seg_eq planned pairOf.primMem)

theorem mirHostname (pairOf : PairOf moves primMove mirMove) :
    mirMove.seg.hostname = (planner.db primMove.seg.content .mirror).hostname := by
  rw [← pairOf.mirRole, ← pairOf.content]
  exact congrArg hostname (seg_eq planned pairOf.mirMem)

theorem pairsFor_swapPairs : PairsFor moves (detectSwapPairs moves) fun cid =>
    Crossing planner sol cid ∧ Returning planner sol cid := by
  have all := pairsFor_movedPairs fun move isIn other otherMem =>
    move_unique planned isIn otherMem
  have filtered := all.filter (fun cid =>
    Crossing planner sol cid ∧ Returning planner sol cid)
    (fun pair => pair.1.seg.hostname = pair.2.dstHost.hostname ∧
      pair.1.dstHost.hostname = pair.2.seg.hostname) ?_
  · simp only [true_and] at filtered
    exact filtered
  · intro pair pairOf
    simp only [decide_eq_true_eq]
    rw [dstHost_eq planned pairOf.mirMem, dstHost_eq planned pairOf.primMem, pairOf.primRole,
      pairOf.mirRole, pairOf.content, primHostname planned pairOf, mirHostname planned pairOf]
    exact and_congr_left' eq_comm

theorem pairsFor_conflictPairs :
    PairsFor moves (detectConflictPairs moves (dbidsOf (detectSwapPairs moves))) fun cid =>
      ¬ Returning planner sol cid ∧ Crossing planner sol cid := by
  have swaps := pairsFor_swapPairs planned
  let rest := moves.filter fun move => move.seg.dbid ∉ dbidsOf (detectSwapPairs moves)
  have all : PairsFor rest (movedPairs rest) fun _ => True :=
    pairsFor_movedPairs fun move isIn other otherMem =>
      move_unique planned (mem_filter.mp isIn).1 (mem_filter.mp otherMem).1
  -- the pairs among the other moves are the pairs that do not swap
  have among (pair : LogicalMove segments × LogicalMove segments) :
      PairOf rest pair.1 pair.2 ↔ PairOf moves pair.1 pair.2 ∧
        ¬ ∃ swap ∈ detectSwapPairs moves, swap.1.seg.content = pair.1.seg.content := by
    constructor
    · intro pairOf
      obtain ⟨primMem, primOther⟩ := mem_filter.mp pairOf.primMem
      obtain ⟨mirMem, _⟩ := mem_filter.mp pairOf.mirMem
      rw [decide_eq_true_eq, mem_dbidsOf planned swaps primMem] at primOther
      exact ⟨⟨primMem, mirMem, pairOf.content, pairOf.primRole, pairOf.mirRole⟩, primOther⟩
    · rintro ⟨pairOf, noSwap⟩
      refine ⟨mem_filter.mpr ⟨pairOf.primMem, ?_⟩, mem_filter.mpr ⟨pairOf.mirMem, ?_⟩,
        pairOf.content, pairOf.primRole, pairOf.mirRole⟩
      · rwa [decide_eq_true_eq, mem_dbidsOf planned swaps pairOf.primMem]
      · rwa [decide_eq_true_eq, mem_dbidsOf planned swaps pairOf.mirMem, pairOf.content]
  refine ⟨fun pair => ?_, all.once.sublist (filter_sublist.map _)⟩
  unfold detectConflictPairs
  rw [mem_filter, all.mem, and_true, among]
  constructor
  · rintro ⟨⟨pairOf, noSwap⟩, passed⟩
    have cross : Crossing planner sol pair.1.seg.content := by
      have same := of_decide_eq_true passed
      rwa [dstHost_eq planned pairOf.mirMem, pairOf.mirRole, pairOf.content,
        primHostname planned pairOf] at same
    refine ⟨pairOf, fun returning => noSwap ⟨pair, ?_, rfl⟩, cross⟩
    exact (swaps.mem pair).mpr ⟨pairOf, cross, returning⟩
  · rintro ⟨pairOf, notReturning, cross⟩
    refine ⟨⟨pairOf, ?_⟩, decide_eq_true ?_⟩
    · rintro ⟨swap, swapMem, same⟩
      have returning := ((swaps.mem swap).mp swapMem).2.2
      rw [same] at returning
      exact notReturning returning
    · rw [dstHost_eq planned pairOf.mirMem, pairOf.mirRole, pairOf.content,
        primHostname planned pairOf]
      exact cross

theorem Crosses.exists_pair (crosses : Crosses planner sol cid) :
    ∃ pair : LogicalMove segments × LogicalMove segments,
      PairOf moves pair.1 pair.2 ∧ pair.1.seg.content = cid := by
  have mirMoves : (planner.db cid .mirror).hostname ≠ planner.assigned sol cid .mirror := by
    rw [crosses.crossing]
    exact crosses.apart.symm
  obtain ⟨primMove, primMem, rfl, primRole⟩ := exists_move planned crosses.moves
  obtain ⟨mirMove, mirMem, same, mirRole⟩ := exists_move planned mirMoves
  exact ⟨(primMove, mirMove), ⟨primMem, mirMem, same, primRole, mirRole⟩, rfl⟩

end

/-! ### The three orders -/

structure Settled (planner : Planner segments)
    (solution : Placement segments planner.targetCount) : Prop where
  roles : ∀ content role, (planner.db content role).role = role
  apart : ∀ content, (planner.db content .primary).hostname ≠ (planner.db content .mirror).hostname
  different : ∀ content, planner.assigned solution content .primary ≠
    planner.assigned solution content .mirror

theorem Settled.crosses (settled : Settled planner sol) (cross : Crossing planner sol cid) :
    Crosses planner sol cid :=
  ⟨settled.apart cid, cross ▸ (settled.different cid).symm, cross⟩

/-- One move of the role for each pair. -/
def PhaseFor (role : Role) (pairs : List (LogicalMove segments × LogicalMove segments))
    (phase : List (LogicalMove segments)) : Prop :=
  List.Forall₂ (fun pair move => move.seg.content = pair.1.seg.content ∧ move.role = role ∧
    move.seg.role = role) pairs phase

section

variable (planned : Planner.Planned planner sol planner.segDbList moves)
  (settled : Settled planner sol)
include planned settled

theorem planPart_filter {test} (tests : ∀ move, test move = true → move.role = role) :
    PlanPart role (moves.filter test) :=
  planPart_of_sublist planned settled.roles filter_sublist fun move isIn =>
    tests move (mem_filter.mp isIn).2

theorem hostAfter_primaries (cid) :
    hostAfter (moves.filter fun move => !move.seg.isSegmentMirror) cid
      (planner.db cid .primary).hostname = planner.assigned sol cid .primary := by
  refine (hostAfter_chosen planned ?_ (fun _ => True) (fun move => ?_) cid).1 trivial
  · exact planPart_filter planned settled fun move test =>
      role_eq_primary.mpr (by simpa using test)
  · simp [role_eq_primary]

theorem exists_pair (ok : PairsFor moves pairs (Crossing planner sol)) {cid}
    (cross : Crossing planner sol cid) :
    ∃ pair ∈ pairs, pair.1.seg.content = cid := by
  obtain ⟨pair, pairOf, same⟩ := (settled.crosses cross).exists_pair planned
  exact ⟨pair, (ok.mem pair).mpr ⟨pairOf, same ▸ cross⟩, same⟩

theorem phased_conflict (ok : PairsFor moves pairs holds)
    (crossings : ∀ cid, holds cid ↔ Crossing planner sol cid)
    (noReturn : ∀ cid, Crossing planner sol cid →
      ¬ Returning planner sol cid) :
    ∃ first snd third, Phased planner (planner.assigned sol)
      (groupConflictMoves moves pairs) first snd third := by
  obtain rfl : holds = Crossing planner sol := funext fun cid => propext (crossings cid)
  -- the mirrors of the pairs are those that cross
  have crosses (move : LogicalMove segments) (isIn : move ∈ moves)
      (isMirror : move.role = .mirror) :
      move.seg.dbid ∈ pairs.map (fun pair => pair.2.seg.dbid) ↔
        Crossing planner sol move.seg.content := by
    constructor
    · intro lt
      obtain ⟨pair, pairMem, same⟩ := mem_map.mp lt
      obtain ⟨pairOf, crossing⟩ := (ok.mem pair).mp pairMem
      rwa [← move_eq_of_dbid planned pairOf.mirMem isIn same, pairOf.content]
    · intro crossing
      obtain ⟨pair, pairMem, same⟩ := exists_pair planned settled ok crossing
      have pairOf := ((ok.mem pair).mp pairMem).1
      refine mem_map.mpr ⟨pair, pairMem, ?_⟩
      rw [move_unique planned pairOf.mirMem isIn (pairOf.content.trans same)
        (pairOf.mirRole.trans isMirror.symm)]
  let early := moves.filter fun move =>
    move.seg.isSegmentMirror ∧ move.seg.dbid ∉ pairs.map fun pair => pair.2.seg.dbid
  let late := moves.filter fun move =>
    move.seg.isSegmentMirror ∧ move.seg.dbid ∈ pairs.map fun pair => pair.2.seg.dbid
  have earlyPart : PlanPart .mirror early := planPart_filter planned settled fun move test =>
    role_eq_mirror.mpr (of_decide_eq_true test).1
  have latePart : PlanPart .mirror late := planPart_filter planned settled fun move test =>
    role_eq_mirror.mpr (of_decide_eq_true test).1
  have inEarly (move : LogicalMove segments) : move ∈ early ↔ move ∈ moves ∧
      move.role = .mirror ∧ ¬ Crossing planner sol move.seg.content := by
    simp only [early, mem_filter, decide_eq_true_eq, ← role_eq_mirror]
    exact and_congr_right fun isIn => and_congr_right fun isMirror =>
      not_congr (crosses move isIn isMirror)
  have inLate (move : LogicalMove segments) : move ∈ late ↔ move ∈ moves ∧
      move.role = .mirror ∧ Crossing planner sol move.seg.content := by
    simp only [late, mem_filter, decide_eq_true_eq, ← role_eq_mirror]
    exact and_congr_right fun isIn => and_congr_right fun isMirror =>
      crosses move isIn isMirror
  have first (cid) := hostAfter_chosen planned earlyPart (¬ Crossing planner sol ·) inEarly cid
  have last (cid) := hostAfter_chosen planned latePart (Crossing planner sol) inLate cid
  refine ⟨early, moves.filter fun move => !move.seg.isSegmentMirror, late, ?_⟩
  exact {
    parts := append_assoc _ _ _
    firstPart := earlyPart
    secondPart := planPart_filter planned settled fun move test =>
      role_eq_primary.mpr (by simpa using test)
    thirdPart := latePart
    separated some_ := by
      obtain ⟨move, isIn⟩ := exists_mem_of_ne_nil late some_
      obtain ⟨pair, pairOf, _⟩ :=
        (settled.crosses ((inLate move).mp isIn).2.2).exists_pair planned
      refine ne_nil_of_mem (mem_filter.mpr ⟨pairOf.primMem, ?_⟩)
      simp [role_eq_primary.mp pairOf.primRole]
    start := settled.apart
    afterFirst cid := by
      by_cases crossing : Crossing planner sol cid
      · rw [(first cid).2 (not_not.mpr crossing)]
        exact settled.apart cid
      · rw [(first cid).1 crossing]
        exact fun same => crossing same.symm
    afterSecond cid := by
      by_cases crossing : Crossing planner sol cid
      · rw [(first cid).2 (not_not.mpr crossing)]
        exact noReturn cid crossing
      · rw [(first cid).1 crossing]
        exact settled.different cid
    afterThird := settled.different
    primaries := hostAfter_primaries planned settled
    mirrors cid := by
      by_cases crossing : Crossing planner sol cid
      · rw [(first cid).2 (not_not.mpr crossing), (last cid).1 crossing]
      · rw [(first cid).1 crossing, (last cid).2 crossing] }

section

variable (ok : PairsFor moves pairs (Crossing planner sol))
include ok

theorem mem_nonSwap : move ∈ moves.filter (fun move => move.seg.dbid ∉ dbidsOf pairs) ↔
      move ∈ moves ∧ ¬ Crossing planner sol move.seg.content := by
  rw [mem_filter, decide_eq_true_eq]
  refine and_congr_right fun isIn => not_congr ?_
  rw [mem_dbidsOf planned ok isIn]
  refine ⟨?_, exists_pair planned settled ok⟩
  rintro ⟨pair, pairMem, same⟩
  exact same ▸ ((ok.mem pair).mp pairMem).2

section

variable {phase : List (LogicalMove segments)} (one : PhaseFor role pairs phase)
include one

omit planned settled in
theorem crossing_of_mem_phase (isIn : move ∈ phase) : Crossing planner sol move.seg.content := by
  obtain ⟨pair, pairMem, same, _⟩ := exists_of_forall₂ one.flip isIn
  exact same ▸ ((ok.mem pair).mp pairMem).2

/-- A part of a swap plan: the moves of a role outside of the crossings, and one move for each
crossing. -/
theorem planPart_swap
    (straight : sub.Sublist (moves.filter fun move => move.seg.dbid ∉ dbidsOf pairs))
    (straightKind : ∀ move ∈ sub, move.role = role) : PlanPart role (sub ++ phase) := by
  have subPart := planPart_of_sublist planned settled.roles
    (straight.trans filter_sublist) straightKind
  have contents : phase.map (fun move => move.seg.content) =
      pairs.map fun pair => pair.1.seg.content :=
    map_eq_of_forall₂ one.flip fun _ _ is => is.1
  refine ⟨forall_mem_append.mpr ⟨subPart.kind, fun move right => ?_⟩,
    forall_mem_append.mpr ⟨subPart.current, fun move right => ?_⟩, ?_⟩
  · obtain ⟨_, _, _, is, _⟩ := exists_of_forall₂ one.flip right
    exact is
  · obtain ⟨_, _, _, _, is⟩ := exists_of_forall₂ one.flip right
    exact is
  · rw [map_append, contents, nodup_append]
    refine ⟨subPart.once, ok.once, ?_⟩
    intro _ firstMem _ secondMem same
    obtain ⟨move, isIn, rfl⟩ := mem_map.mp firstMem
    obtain ⟨pair, pairMem, rfl⟩ := mem_map.mp secondMem
    apply ((mem_nonSwap planned settled ok).mp (straight.subset isIn)).2
    rw [same]
    exact ((ok.mem pair).mp pairMem).2

/-- Outside of the crossings, the first moves of a swap plan bring a segment where it should
be. -/
theorem hostAfter_straight (part : PlanPart role (sub ++ phase)) (straight : ∀ move, move ∈ sub ↔
      move ∈ moves.filter (fun move => move.seg.dbid ∉ dbidsOf pairs) ∧ move.role = role)
    (noCrossing : ¬ Crossing planner sol cid) :
    hostAfter (sub ++ phase) cid (planner.db cid role).hostname =
      planner.assigned sol cid role := by
  refine hostAfter_planned planned part (fun move isIn same => ?_) fun move isIn same is => ?_
  · rcases mem_append.mp isIn with left | right
    · exact ((mem_nonSwap planned settled ok).mp ((straight move).mp left).1).1
    · exact absurd (crossing_of_mem_phase ok one right) (same ▸ noCrossing)
  · refine mem_append_left _ ((straight move).mpr ⟨?_, is⟩)
    exact (mem_nonSwap planned settled ok).mpr ⟨isIn, same ▸ noCrossing⟩

end

theorem phased_swap {phases alloc}
    (decomposed : Planner.PhasesOk planner moves pairs phases alloc) :
    ∃ first snd third, Phased planner (planner.assigned sol)
      (groupSwapMoves moves (dbidsOf pairs) phases.phase1 phases.phase2 phases.phase3)
      first snd third := by
  obtain ⟨nonSwap, nonSwapIs⟩ := @exists_eq _
    (moves.filter (fun move => move.seg.dbid ∉ dbidsOf pairs))
  have pairOf (pair) (isIn : pair ∈ pairs) : PairOf moves pair.1 pair.2 :=
    ((ok.mem pair).mp isIn).1
  have mirrorIs {prim mir : LogicalMove segments} (pair : PairOf moves prim mir) :
      mir.seg.role = .mirror ∧ mir.seg.preferredRole = .mirror := by
    rw [preferredRole_eq planned pair.mirMem, pair.mirRole, seg_eq planned pair.mirMem,
      settled.roles, pair.mirRole]
    exact ⟨rfl, rfl⟩
  have one : PhaseFor .mirror pairs phases.phase1 := by
    refine ((forall₂_and_left _ _).mpr ⟨pairOf, decomposed.phase1⟩).imp fun pair move both => ?_
    rw [role_eq_mirror, both.2.seg, isSegmentMirror, (mirrorIs both.1).2, both.1.content]
    exact ⟨rfl, rfl, (mirrorIs both.1).1⟩
  have two : PhaseFor .primary pairs phases.phase2 := by
    rw [decomposed.phase2, PhaseFor, forall₂_map_right_iff, forall₂_same]
    intro pair isIn
    have is := pairOf pair isIn
    refine ⟨rfl, is.primRole, ?_⟩
    rw [seg_eq planned is.primMem, settled.roles, is.primRole]
  have three : PhaseFor .mirror pairs phases.phase3 := by
    refine ((forall₂_and_left _ _).mpr ⟨pairOf, decomposed.phase3⟩).imp fun pair move both => ?_
    rw [role_eq_mirror, both.2.role, isSegmentMirror, both.2.preferredRole,
      (mirrorIs both.1).2, both.2.content, both.1.content]
    exact ⟨rfl, rfl, (mirrorIs both.1).1⟩
  let first := nonSwap.filter (fun move => move.seg.isSegmentMirror) ++ phases.phase1
  have firstPart : PlanPart .mirror first :=
    planPart_swap planned settled ok one (nonSwapIs ▸ filter_sublist) fun move isIn =>
      role_eq_mirror.mpr (mem_filter.mp isIn).2
  have secondPart : PlanPart .primary
      (nonSwap.filter (fun move => !move.seg.isSegmentMirror) ++ phases.phase2) :=
    planPart_swap planned settled ok two (nonSwapIs ▸ filter_sublist) fun move isIn =>
      role_eq_primary.mpr (by simpa using (mem_filter.mp isIn).2)
  have thirdPart : PlanPart .mirror ([] ++ phases.phase3) :=
    planPart_swap planned settled ok three (nil_sublist _) (by simp)
  have mirrorGoes {cid : Fin segments} (straight : ¬ Crossing planner sol cid) :
      hostAfter first cid (planner.db cid .mirror).hostname =
        planner.assigned sol cid .mirror :=
    hostAfter_straight planned settled ok one firstPart
      (fun move => by rw [nonSwapIs, mem_filter, role_eq_mirror]) straight
  -- in a crossing, the mirror is at a third host while the primary moves
  have apart (cid) : (planner.db cid .primary).hostname ≠ hostAfter first cid
        (planner.db cid .mirror).hostname ∧
      planner.assigned sol cid .primary ≠ hostAfter first cid
        (planner.db cid .mirror).hostname := by
    by_cases cross : Crossing planner sol cid
    case neg =>
      rw [mirrorGoes cross]
      exact ⟨fun same => cross same.symm, settled.different cid⟩
    obtain ⟨pair, pairMem, rfl⟩ := exists_pair planned settled ok cross
    obtain ⟨move, isIn, detour⟩ := exists_of_forall₂ decomposed.phase1 pairMem
    have is := pairOf pair pairMem
    have same : move.seg.content = pair.1.seg.content := by rw [detour.seg, is.content]
    have awayFromPrimary := detour.stop.awayFromPrimary
    have awayFromMirror := detour.stop.awayFromMirror
    rw [dstHost_eq planned is.primMem, is.primRole] at awayFromPrimary
    rw [dstHost_eq planned is.mirMem, is.mirRole, is.content] at awayFromMirror
    rw [← same, hostAfter_of_mem firstPart (mem_append_right _ isIn), same, ← cross]
    exact ⟨awayFromMirror.symm, awayFromPrimary.symm⟩
  refine ⟨first, _, [] ++ phases.phase3, ?_, firstPart, secondPart, thirdPart, ?_, settled.apart,
    fun cid => (apart cid).1, fun cid => (apart cid).2, settled.different, ?_, ?_⟩
  · rw [groupSwapMoves, ← nonSwapIs]
    simp only [first, append_assoc, nil_append]
  · intro some_
    obtain ⟨move, isIn⟩ := exists_mem_of_ne_nil _ some_
    obtain ⟨pair, pairMem, _⟩ := exists_of_forall₂ three.flip isIn
    obtain ⟨primary, primaryMem, _⟩ := exists_of_forall₂ two pairMem
    exact ne_nil_of_mem (mem_append_right _ primaryMem)
  · intro cid
    by_cases cross : Crossing planner sol cid
    · obtain ⟨pair, pairMem, rfl⟩ := exists_pair planned settled ok cross
      have isIn : pair.1 ∈ phases.phase2 := decomposed.phase2 ▸ mem_map_of_mem pairMem
      rw [hostAfter_of_mem secondPart (mem_append_right _ isIn),
        dstHost_eq planned (pairOf pair pairMem).primMem, (pairOf pair pairMem).primRole]
    · exact hostAfter_straight planned settled ok two secondPart
        (fun move => by rw [nonSwapIs, mem_filter, role_eq_primary, Bool.not_eq_true']) cross
  · intro cid
    by_cases cross : Crossing planner sol cid
    · obtain ⟨pair, pairMem, rfl⟩ := exists_pair planned settled ok cross
      obtain ⟨move, isIn, back⟩ := exists_of_forall₂ decomposed.phase3 pairMem
      have is := pairOf pair pairMem
      rw [is.content.symm.trans back.content.symm,
        hostAfter_of_mem thirdPart (mem_append_right _ isIn), back.dstHost,
        dstHost_eq planned is.mirMem, is.mirRole, back.content]
    · rw [mirrorGoes cross, hostAfter_of_not_mem]
      intro move isIn same
      exact cross (same ▸ crossing_of_mem_phase ok three isIn)

end

end

/-! ### The plan -/

section

variable {env : Surroundings segments} {allocator : PortAllocator}

theorem PairsFor.append {swaps conflicts} {cross returning : Fin segments → Prop}
    (first : PairsFor moves swaps fun cid => cross cid ∧ returning cid)
    (snd : PairsFor moves conflicts fun cid => ¬ returning cid ∧ cross cid) :
    PairsFor moves (swaps ++ conflicts) cross where
  mem pair := by
    rw [mem_append, first.mem, snd.mem]
    tauto
  once := by
    rw [map_append, nodup_append]
    refine ⟨first.once, snd.once, ?_⟩
    intro cid firstMem _ secondMem same
    obtain ⟨swap, swapMem, rfl⟩ := mem_map.mp firstMem
    obtain ⟨conflict, conflictMem, rfl⟩ := mem_map.mp secondMem
    apply ((snd.mem conflict).mp conflictMem).2.1
    rw [← same]
    exact ((first.mem swap).mp swapMem).2.2

variable {plan : List (LogicalMove segments)}

theorem groupConflictMoves_subset (moves : List (LogicalMove segments)) (pairs) :
    groupConflictMoves moves pairs ⊆ moves := by
  intro _ isIn
  simp only [groupConflictMoves, mem_append, mem_filter] at isIn
  rcases isIn with (isIn | isIn) | isIn <;> exact isIn.1

theorem groupPlainMoves_eq (moves : List (LogicalMove segments)) :
    groupPlainMoves moves = groupConflictMoves moves [] := by
  simp [groupPlainMoves, groupConflictMoves]

theorem phased_straight (asked : Planner.Planned planner sol planner.segDbList moves)
    (settled : Settled planner sol) (noSwap : detectSwapPairs moves = []) :
    ∃ first snd third, Phased planner (planner.assigned sol) (groupConflictMoves moves
      (detectConflictPairs moves (dbidsOf (detectSwapPairs moves)))) first snd third := by
  have noReturn (cid : Fin segments) (cross : Crossing planner sol cid) :
      ¬ Returning planner sol cid := by
    intro returning
    obtain ⟨pair, pairOf, rfl⟩ := (settled.crosses cross).exists_pair asked
    have isIn := ((pairsFor_swapPairs asked).mem pair).mpr ⟨pairOf, cross, returning⟩
    rw [noSwap] at isIn
    cases isIn
  refine phased_conflict asked settled (pairsFor_conflictPairs asked) (fun cid => ?_) noReturn
  exact ⟨And.right, fun cross => ⟨noReturn cid cross, cross⟩⟩

/-- The pairs that are decomposed if there is a swap among them. -/
abbrev swappedPairs (moves : List (LogicalMove segments)) :=
  detectSwapPairs moves ++ detectConflictPairs moves (dbidsOf (detectSwapPairs moves))

/-- Swaps are decomposed, the conflicts with them. Without swaps the mirrors of the conflicts go
last, and with roles swapped in place no pair is looked for. -/
theorem orderMoves_cases {planned} (ports : PortsOk planner planned.allocator planned.moves)
    (ord : planner.orderMoves env planned = .ok plan) :
    (planner.inplaceSwapRoles = false ∧ detectSwapPairs planned.moves ≠ [] ∧ ∃ phases alloc,
      Planner.PhasesOk planner planned.moves (swappedPairs planned.moves) phases alloc ∧
      plan = groupSwapMoves planned.moves (dbidsOf (swappedPairs planned.moves)) phases.phase1
        phases.phase2 phases.phase3) ∨
    ∃ conflicts, plan = groupConflictMoves planned.moves conflicts ∧
      (planner.inplaceSwapRoles = false → detectSwapPairs planned.moves = [] ∧
        conflicts =
          detectConflictPairs planned.moves (dbidsOf (detectSwapPairs planned.moves))) := by
  unfold Planner.orderMoves at ord
  cases inplace : planner.inplaceSwapRoles with
  | true =>
    simp only [inplace, if_true, ne_eq, not_true, if_false] at ord
    cases ord
    exact .inr ⟨[], groupPlainMoves_eq _, nofun⟩
  | false =>
    simp only [inplace, Bool.false_eq_true, if_false] at ord
    split_ifs at ord with someSwap someConflict
    · obtain ⟨phases, decomposed, rest⟩ := bind_eq_ok ord
      cases rest
      obtain ⟨alloc, phasesOk⟩ := Planner.decomposeSwapPairs_spec ports decomposed
      exact .inl ⟨rfl, someSwap, phases, alloc, phasesOk, rfl⟩
    · cases ord
      exact .inr ⟨_, rfl, fun _ => ⟨not_not.mp someSwap, rfl⟩⟩
    · cases ord
      exact .inr ⟨[], groupPlainMoves_eq _, fun _ =>
        ⟨not_not.mp someSwap, (not_not.mp someConflict).symm⟩⟩

theorem orderMoves_spec {planned} (roleSwaps : planner.inplaceSwapRoles = false)
    (settled : Settled planner sol) (ports : PortsOk planner planned.allocator planned.moves)
    (asked : Planner.Planned planner sol planner.segDbList planned.moves)
    (ord : planner.orderMoves env planned = .ok plan) :
    (∃ first snd third, Phased planner (planner.assigned sol) plan first snd third) ∧
    ∃ allocator alloc, PortsOk planner allocator alloc ∧ plan ⊆ alloc := by
  have all := (pairsFor_swapPairs asked).append (pairsFor_conflictPairs asked)
  rcases orderMoves_cases ports ord with
    ⟨-, -, phases, alloc, phasesOk, rfl⟩ | ⟨conflicts, rfl, unswapped⟩
  · refine ⟨phased_swap asked settled all phasesOk, _, alloc, phasesOk.ports, fun move isIn => ?_⟩
    simp only [groupSwapMoves, mem_append] at isIn
    rcases isIn with (((nonSwap | phase1) | nonSwap) | phase2) | phase3
    · exact phasesOk.planned (mem_filter.mp (mem_filter.mp nonSwap).1).1
    · exact phasesOk.phase1_mem phase1
    · exact phasesOk.planned (mem_filter.mp (mem_filter.mp nonSwap).1).1
    · rw [phasesOk.phase2] at phase2
      obtain ⟨pair, pairMem, rfl⟩ := mem_map.mp phase2
      exact phasesOk.planned ((all.mem pair).mp pairMem).1.primMem
    · exact phasesOk.phase3_mem phase3
  · obtain ⟨noSwap, rfl⟩ := unswapped roleSwaps
    exact ⟨phased_straight asked settled noSwap, _, planned.moves, ports,
      groupConflictMoves_subset _ _⟩

theorem subset_of_admissible {order} (adm : Admissible plan order) : order ⊆ plan := by
  obtain ⟨_, perms, rfl⟩ := adm
  intro _ isIn
  obtain ⟨_, batchMem, lt⟩ := mem_flatten.mp isIn
  obtain ⟨original, originalMem, perm⟩ := exists_of_forall₂ perms.flip batchMem
  have joined : (batches plan).flatten = plan := flatten_splitBy _ plan
  rw [← joined]
  exact mem_flatten.mpr ⟨original, originalMem, perm.mem_iff.mpr lt⟩

theorem assigned_ne (valid : Valid planner.encodeConfiguration sol) (cid) :
    planner.assigned sol cid .primary ≠ planner.assigned sol cid .mirror := by
  intro same
  apply valid.apart cid
  have ids := Planner.idToHost_injective same
  exact Fin.castLE_injective planner.targetCount_le ids

theorem formMoves_ordered {plan} (formed : planner.formMoves env sol = .ok (some plan)) :
    ∃ planned, planner.planSegments env sol = .ok planned ∧
      PortsOk planner planned.allocator planned.moves ∧
      Planner.Planned planner sol planner.segDbList planned.moves ∧
      planner.orderMoves env planned = .ok plan := by
  obtain ⟨_, _, formed⟩ := bind_eq_ok formed
  split_ifs at formed
  · cases formed
  obtain ⟨planned, segmentsPlanned, formed⟩ := bind_eq_ok formed
  split_ifs at formed
  · cases formed
  obtain ⟨ports, asked⟩ := Planner.planSegments_spec segmentsPlanned
  refine ⟨planned, segmentsPlanned, ports, asked, ?_⟩
  split at formed
  · cases formed
  · obtain ⟨_, is, same⟩ := bind_eq_ok formed
    cases same
    exact is

/-- For every cluster whose pairs are on two hosts, in their preferred roles, and every valid
solution: carrying out the plan, batch by batch and in any order inside a batch, never puts the
two segments of a content on one host and never gives two segments of one host the same port
(they share one only if they did so from the start), and it ends with every segment on the host
of the solution. -/
theorem formMoves_safe (planner : Planner segments) (env : Surroundings segments)
    (roles : ∀ content role, (planner.db content role).role = role)
    (apart : ∀ content, (planner.db content .primary).hostname ≠
      (planner.db content .mirror).hostname)
    (roleSwaps : planner.inplaceSwapRoles = false)
    {solution : Placement segments planner.targetCount}
    (valid : Valid planner.encodeConfiguration solution)
    {plan : List (LogicalMove segments)} (formed : planner.formMoves env solution = .ok (some plan))
    {order : List (LogicalMove segments)} (admissible : Admissible plan order) :
    (∀ done, done <+: order →
      (∀ content, (done.foldl carryOut planner.locations content .primary).1 ≠
        (done.foldl carryOut planner.locations content .mirror).1) ∧
      (∀ content role content' role', done.foldl carryOut planner.locations content role =
          done.foldl carryOut planner.locations content' role' →
        content = content' ∧ role = role' ∨
          planner.locations content role = planner.locations content' role')) ∧
    ∀ content role, (order.foldl carryOut planner.locations content role).1 =
      planner.assigned solution content role := by
  have settled : Settled planner solution := ⟨roles, apart, assigned_ne valid⟩
  obtain ⟨_, -, ports, asked, ord⟩ := formMoves_ordered formed
  obtain ⟨⟨_, _, _, phased⟩, _, _, portsOk, known⟩ :=
    orderMoves_spec roleSwaps settled ports asked ord
  refine ⟨fun done pre => ⟨phased.apart admissible pre, ?_⟩, phased.arrives admissible⟩
  intro content role content' role' same
  exact foldl_carryOut_injective portsOk known
    (fun move isIn => subset_of_admissible admissible (pre.subset isIn)) same

/-! ### Real moves -/

/-- Every move of the plan is real, and so is every detour of a pair that is decomposed: its
intermediate host is not one that a segment of the pair is on or goes to. -/
def Planner.MakesRealMoves (planner : Planner segments) (env : Surroundings segments)
    (solution : Placement segments planner.targetCount) : Prop :=
  (∀ plan, planner.formMoves env solution = .ok (some plan) → realMoves planner.locations plan) ∧
  ∀ planned, planner.planSegments env solution = .ok planned →
    let swapPairs := detectSwapPairs planned.moves
    planner.inplaceSwapRoles = false → swapPairs ≠ [] →
      ∀ pair ∈ swapPairs ++ detectConflictPairs planned.moves (dbidsOf swapPairs), ∀ host,
        planner.selectIntermediateHost env pair.1 pair.2 = .ok host →
          host.hostname ∉ [pair.1.seg.hostname, pair.1.dstHost.hostname, pair.2.seg.hostname,
            pair.2.dstHost.hostname]

section

variable (planned : Planner.Planned planner sol planner.segDbList moves)
include planned

theorem PairOf.crosses {pair : LogicalMove segments × LogicalMove segments}
    (pairOf : PairOf moves pair.1 pair.2) (cross : Crossing planner sol pair.1.seg.content) :
    Crosses planner sol pair.1.seg.content where
  apart := by
    have ne := away planned pairOf.mirMem
    rw [pairOf.mirRole, pairOf.content, cross] at ne
    exact ne.symm
  moves := pairOf.primRole ▸ away planned pairOf.primMem
  crossing := cross

/-- A mirror may stop at the host that it is on, unless its primary goes there. -/
theorem stop_mirror_iff {pair : LogicalMove segments × LogicalMove segments} {host}
    (pairOf : PairOf moves pair.1 pair.2) (crosses : Crosses planner sol pair.1.seg.content)
    (same : host.hostname = (planner.db pair.1.seg.content .mirror).hostname) :
    Planner.Stop planner pair host ↔ host ∈ planner.targetHosts ∧
      host.status ≠ .decommissioned ∧ ¬ Returning planner sol pair.1.seg.content := by
  have taken : host.hostname = pair.1.dstHost.hostname ↔
      Returning planner sol pair.1.seg.content := by
    rw [same, dstHost_eq planned pairOf.primMem, pairOf.primRole]
    exact eq_comm
  constructor
  · exact fun stop => ⟨stop.mem, stop.inUse, mt taken.mpr stop.awayFromPrimary⟩
  · rintro ⟨mem, inUse, notReturning⟩
    refine ⟨mem, inUse, mt taken.mp notReturning, ?_⟩
    rw [same, dstHost_eq planned pairOf.mirMem, pairOf.mirRole, pairOf.content, crosses.crossing]
    exact crosses.apart.symm

theorem leaves (isIn : move ∈ moves) :
    (planner.locations move.seg.content move.role).1 ≠ move.dstHost.hostname := by
  rw [dstHost_eq planned isIn]
  exact away planned isIn

theorem moved_nodup (some_ : sub ⊆ moves) (nodup : sub.Nodup) :
    (sub.map moved).Nodup := by
  refine nodup.map_on fun move isIn other otherIn same => ?_
  exact move_unique planned (some_ isIn) (some_ otherIn) (congrArg Prod.fst same)
    (congrArg Prod.snd same)

theorem realMoves_groupConflictMoves (pairs) :
    realMoves planner.locations (groupConflictMoves moves pairs) := by
  have nodup : moves.Nodup := .of_map _ (segs_nodup planned)
  refine realMoves_of_nodup (moved_nodup planned (groupConflictMoves_subset _ _) ?_)
    fun move isIn => leaves planned (groupConflictMoves_subset _ _ isIn)
  unfold groupConflictMoves
  refine ((nodup.filter _).append (nodup.filter _) ?_).append (nodup.filter _) ?_
  · intro move first other
    simp_all
  · intro move first other
    simp only [mem_append, mem_filter, decide_eq_true_eq, Bool.not_eq_true'] at first other
    rcases first with first | first
    · exact first.2.2 other.2.2
    · exact absurd other.2.1 (by simp [first.2])

section

variable (ok : PairsFor moves pairs holds)
include ok

/-- The pairs and the moves outside of them move each segment once. -/
theorem moved_nodup_pairs : ((moves.filter (fun move => move.seg.dbid ∉ dbidsOf pairs) ++
    (pairs.map Prod.snd ++ pairs.map Prod.fst)).map moved).Nodup := by
  have nodup : moves.Nodup := .of_map _ (segs_nodup planned)
  have pairOf (pair) (isIn : pair ∈ pairs) : PairOf moves pair.1 pair.2 :=
    ((ok.mem pair).mp isIn).1
  have contents : (pairs.map fun pair => pair.2.seg.content).Nodup := by
    rw [map_congr_left fun pair isIn => (pairOf pair isIn).content]
    exact ok.once
  refine moved_nodup planned ?_ ((nodup.filter _).append (Nodup.append ?_ ?_ ?_) ?_)
  · simp only [append_subset, filter_subset_self, true_and]
    constructor <;> intro _ isIn <;> obtain ⟨pair, pairMem, rfl⟩ := mem_map.mp isIn
    exacts [(pairOf pair pairMem).mirMem, (pairOf pair pairMem).primMem]
  · exact .of_map (fun move => move.seg.content) (by rwa [List.map_map])
  · exact .of_map (fun move => move.seg.content) (by rw [List.map_map]; exact ok.once)
  · rintro _ isMir isPrim
    obtain ⟨pair, pairMem, rfl⟩ := mem_map.mp isMir
    obtain ⟨other, otherMem, same⟩ := mem_map.mp isPrim
    have roles := (pairOf other otherMem).primRole
    rw [same, (pairOf pair pairMem).mirRole] at roles
    cases roles
  · intro move isIn inPair
    refine of_decide_eq_true (mem_filter.mp isIn).2 (mem_flatMap.mpr ?_)
    rcases mem_append.mp inPair with isIn | isIn <;>
      obtain ⟨pair, pairMem, rfl⟩ := mem_map.mp isIn <;> exact ⟨pair, pairMem, by simp⟩

theorem realMoves_groupSwapMoves {phases alloc}
    (decomposed : Planner.PhasesOk planner moves pairs phases alloc)
    (stops : ∀ pair ∈ pairs, ∀ host, Planner.Stop planner pair host →
      host.hostname ≠ pair.2.seg.hostname) :
    realMoves planner.locations
      (groupSwapMoves moves (dbidsOf pairs) phases.phase1 phases.phase2 phases.phase3) := by
  obtain ⟨nonSwap, nonSwapIs⟩ := @exists_eq _
    (moves.filter (fun move => move.seg.dbid ∉ dbidsOf pairs))
  have once := moved_nodup_pairs planned ok
  have phase1 : (pairs.map Prod.snd).map moved = phases.phase1.map moved := by
    rw [List.map_map]
    refine map_eq_of_forall₂ decomposed.phase1 fun _ _ detour => ?_
    simp [moved, LogicalMove.role, detour.seg]
  have phase3 : (pairs.map Prod.snd).map moved = phases.phase3.map moved := by
    rw [List.map_map]
    refine map_eq_of_forall₂ decomposed.phase3 fun _ _ back => ?_
    simp [moved, LogicalMove.role, isSegmentMirror, back.content, back.preferredRole]
  rw [← nonSwapIs, map_append, map_append] at once
  have early : ((nonSwap.filter (fun move => move.seg.isSegmentMirror) ++ phases.phase1 ++
      nonSwap.filter (fun move => !move.seg.isSegmentMirror) ++ phases.phase2).map moved).Nodup := by
    have split := (filter_append_perm (fun move => move.seg.isSegmentMirror) nonSwap).map moved
    refine ((split.append_right _).nodup_iff.mpr once).perm ?_
    simp only [map_append, decomposed.phase2, ← phase1, perm_iff_count, count_append]
    intro _
    omega
  have known {move} (isIn : move ∈ nonSwap) : move ∈ moves := by
    rw [nonSwapIs] at isIn
    exact (mem_filter.mp isIn).1
  rw [groupSwapMoves, realMoves_append, ← nonSwapIs]
  refine ⟨realMoves_of_nodup early fun move isIn => ?_, realMoves_of_nodup ?_ fun move isIn => ?_⟩
  · simp only [mem_append, mem_filter] at isIn
    rcases isIn with ((mir | detour) | prim) | isIn
    · exact leaves planned (known mir.1)
    · obtain ⟨pair, pairMem, is⟩ := exists_of_forall₂ decomposed.phase1.flip detour
      have pairOf := ((ok.mem pair).mp pairMem).1
      have same : move.role = pair.2.role := by simp [LogicalMove.role, is.seg]
      have away := stops pair pairMem _ is.stop
      rw [mirHostname planned pairOf] at away
      rw [is.seg, same, pairOf.mirRole, pairOf.content]
      exact away.symm
    · exact leaves planned (known prim.1)
    · rw [decomposed.phase2] at isIn
      obtain ⟨pair, pairMem, rfl⟩ := mem_map.mp isIn
      exact leaves planned ((ok.mem pair).mp pairMem).1.primMem
  · rw [← phase3]
    exact (nodup_append.mp (nodup_append.mp once).2.1).1
  · obtain ⟨pair, pairMem, back⟩ := exists_of_forall₂ decomposed.phase3.flip isIn
    obtain ⟨stop, stopMem, detour⟩ := exists_of_forall₂ decomposed.phase1 pairMem
    have same : move.seg.content = stop.seg.content ∧ move.role = stop.role := by
      simp [LogicalMove.role, isSegmentMirror, detour.seg, back.content, back.preferredRole]
    rw [same.1, same.2, foldl_carryOut_of_mem early (by simp [stopMem]), back.dstHost]
    exact detour.stop.awayFromMirror

end

end

/-- Three hosts; the primary and the mirror of the first content have to change places. -/
def crossedPlanner : Planner 3 where
  db content role := {
    dbid := 2 * content.val + if role = .primary then 2 else 3
    content := content
    role := role
    preferredRole := role
    hostname := if role = .primary then !["sdw1", "sdw1", "sdw3"] content
      else !["sdw2", "sdw3", "sdw2"] content
    datadir := "/data"
    port := if role = .primary then 6000 + content.val else 7000 + content.val }
  targetHosts := [⟨"sdw1", .active⟩, ⟨"sdw2", .active⟩, ⟨"sdw3", .active⟩]
  hostSetChanged := false
  strategy := .grouped
  skipResourceEstimation := true
  inplaceSwapRoles := false
  datadirForSegment _ _ _ := "/data"
  content_db _ _ := rfl
  preferredRole_db _ _ := rfl
  dbid_injective content role content' role' same := by
    cases role <;> cases role' <;> simp at same ⊢ <;> omega
  hostnames_nodup := by decide
  hostname_mem content role := by
    cases role <;> revert content <;> decide

theorem targetCount_crossedPlanner : 3 ≤ crossedPlanner.targetCount := by decide

def crossedSolution : Placement 3 crossedPlanner.targetCount where
  primary content := (![1, 0, 2] content : Fin (1 + 2)).castLE targetCount_crossedPlanner
  mirror content := (![0, 2, 1] content : Fin (1 + 2)).castLE targetCount_crossedPlanner

def quietSurroundings : Surroundings 3 where
  answer _ := some true
  resourceError := none
  score _ _ := some 1

theorem crossedSolution_valid : Valid crossedPlanner.encodeConfiguration crossedSolution where
  apart := by decide
  primaries := by decide
  mirrors := by decide
  grouped := by decide
  spread := by decide

def crossedPlan : List (LogicalMove 3) :=
  match crossedPlanner.formMoves quietSurroundings crossedSolution with
  | .ok (some plan) => plan
  | _ => []

theorem formMoves_safe_crossedPlan : crossedPlan.map (fun move => (move.seg.dbid, move.target)) =
      [(3, "sdw3", 7000), (2, "sdw2", 6000), (3, "sdw1", 7001)] ∧
    (∀ done, done <+: crossedPlan →
      (∀ content, (done.foldl carryOut crossedPlanner.locations content .primary).1 ≠
        (done.foldl carryOut crossedPlanner.locations content .mirror).1) ∧
      (∀ content role content' role', done.foldl carryOut crossedPlanner.locations content role =
          done.foldl carryOut crossedPlanner.locations content' role' →
        content = content' ∧ role = role' ∨ crossedPlanner.locations content role =
          crossedPlanner.locations content' role')) ∧
    ∀ content role, (crossedPlan.foldl carryOut crossedPlanner.locations content role).1 =
      crossedPlanner.assigned crossedSolution content role := by
  exact ⟨by decide +kernel, formMoves_safe crossedPlanner quietSurroundings (fun _ _ => rfl)
    (by decide) rfl crossedSolution_valid (by decide +kernel)
    ⟨batches crossedPlan, forall₂_same.mpr fun _ _ => .refl _, (flatten_splitBy _ _).symm⟩⟩

/-- The mirror of the second content goes to the host of its primary, which goes to a third one. -/
def conflictPlanner : Planner 3 where
  __ := crossedPlanner
  db content role := { crossedPlanner.db content role with
    hostname := if role = .primary then !["sdw1", "sdw3", "sdw3"] content else "sdw2" }
  content_db _ _ := rfl
  preferredRole_db _ _ := rfl
  dbid_injective := crossedPlanner.dbid_injective
  hostname_mem content role := by
    cases role <;> revert content <;> decide

/-- The same, but with a fourth host, which the mirror leaves for good. -/
def leavingPlanner : Planner 3 where
  __ := conflictPlanner
  db content role := { crossedPlanner.db content role with
    hostname := if role = .primary then !["sdw1", "sdw3", "sdw3"] content
      else !["sdw2", "sdw4", "sdw2"] content }
  targetHosts := conflictPlanner.targetHosts ++ [⟨"sdw4", .decommissioned⟩]
  content_db _ _ := rfl
  preferredRole_db _ _ := rfl
  dbid_injective := crossedPlanner.dbid_injective
  hostnames_nodup := by decide
  hostname_mem content role := by
    cases role <;> revert content <;> decide

def leavingPlan : List (LogicalMove 3) :=
  match leavingPlanner.formMoves quietSurroundings crossedSolution with
  | .ok (some plan) => plan
  | _ => []

end

end Greengage.Rebalance
