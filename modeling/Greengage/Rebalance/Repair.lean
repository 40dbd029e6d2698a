import Greengage.Rebalance.Mirrors
import Greengage.Rebalance.Search
import Mathlib

/-!
Contract: the search keeps to valid placements.

A repair assigns one segment after another to a pair of hosts that has room and that the
strategy allows (`RepairingOk`). When every segment has been assigned, the capacities are used
up exactly and the placement is valid, whatever was destroyed and in whatever order it was
repaired.
-/

namespace Greengage.Rebalance

open Option Function Foundations List

variable {segments segs hosts initialHosts : Nat}

variable {α : Type*}

theorem draw_subperm (picks : Nat → Nat) (count : Nat) (items : List α) :
    (draw picks count items).Subperm items := by
  induction count generalizing items with
  | zero => exact nil_subperm
  | succ count ih =>
    unfold draw
    split
    · exact nil_subperm
    · next item found =>
      obtain ⟨lt, is⟩ := List.getElem?_eq_some_iff.mp found
      have rest := ih (items.eraseIdx (picks count % items.length))
      have whole := getElem_cons_eraseIdx_perm lt
      rw [is] at whole
      exact ((subperm_cons item).mpr rest).trans whole.subperm

variable {picks : Nat → Nat} {items : List α}

theorem mem_of_mem_shuffle {item} (mem : item ∈ shuffle picks items) : item ∈ items :=
  (draw_subperm picks _ items).subset mem

theorem shuffle_nodup (nodup : items.Nodup) : (shuffle picks items).Nodup := by
  obtain ⟨_, perm, sublist⟩ := draw_subperm picks items.length items
  exact perm.nodup_iff.mp (nodup.sublist sublist)

namespace SolverConfig

variable {config cfg : SolverConfig segs hosts initialHosts}

/-! ### One assignment -/

structure RepairingOk (config : SolverConfig segments hosts initialHosts)
    (state : Repairing segments hosts) : Prop where
  primaryCapacity : ∀ host, state.primaryCapacity host =
    (config.targetPrimaryLoad : Int) - load state.primaryMapping host
  mirrorCapacity : ∀ host, state.mirrorCapacity host =
    (config.targetPrimaryLoad : Int) - load state.mirrorMapping host
  primaryWithin : ∀ host, load state.primaryMapping host ≤ config.targetPrimaryLoad
  mirrorWithin : ∀ host, load state.mirrorMapping host ≤ config.targetPrimaryLoad
  both : ∀ seg, state.primaryMapping seg = none ↔ state.mirrorMapping seg = none
  apart : ∀ seg host, state.primaryMapping seg = some host → state.mirrorMapping seg ≠ some host
  grouped : config.strategy = .grouped → (∀ seg host, state.primaryMapping seg = some host →
      state.mirrorMapping seg = state.primaryToMirror host) ∧
    ∀ host, state.primaryToMirror host ≠ some host
  used : ∀ seg pHost mHost, state.primaryMapping seg = some pHost →
    state.mirrorMapping seg = some mHost → mHost ∈ state.primaryToUsedMirrors pHost
  spread : config.strategy = .spread → ∀ seg other pHost mHost,
    state.primaryMapping seg = some pHost → state.primaryMapping other = some pHost →
    state.mirrorMapping seg = some mHost → state.mirrorMapping other = some mHost → seg = other

structure Admissible (config : SolverConfig segments hosts initialHosts)
    (state : Repairing segments hosts) (offer : Offer hosts) : Prop where
  primaryRoom : load state.primaryMapping offer.pHost < config.targetPrimaryLoad
  mirrorRoom : load state.mirrorMapping offer.mHost < config.targetPrimaryLoad
  apart : offer.mHost ≠ offer.pHost
  grouped : config.strategy = .grouped → state.primaryToMirror offer.pHost = none ∨
    state.primaryToMirror offer.pHost = some offer.mHost
  spread : config.strategy = .spread → offer.mHost ∉ state.primaryToUsedMirrors offer.pHost

namespace RepairingOk

variable {state : Repairing segs hosts} {seg : Fin segs} {offer : Offer hosts}
  {setOrder : List Nat → Nat → Nat}

theorem admissible (ok : RepairingOk cfg state)
    (offered : offer ∈ cfg.offers state setOrder seg) : Admissible cfg state offer := by
  obtain ⟨pHost, hasRoom, offered⟩ := mem_flatMap.mp offered
  obtain ⟨mHost, mem, rfl⟩ := mem_map.mp offered
  have valid := mem_of_mem_shuffle mem
  have primaryRoom : load state.primaryMapping pHost < cfg.targetPrimaryLoad := by
    have room : 0 < state.primaryCapacity pHost := by simpa using hasRoom
    rw [ok.primaryCapacity] at room
    omega
  have room_of : 0 < state.mirrorCapacity mHost →
      load state.mirrorMapping mHost < cfg.targetPrimaryLoad := by
    intro room
    rw [ok.mirrorCapacity] at room
    omega
  unfold getValidMirrors at valid
  cases strat : cfg.strategy with
  | grouped =>
    simp only [strat] at valid
    cases existing : state.primaryToMirror pHost with
    | some cur =>
      simp only [existing] at valid
      split_ifs at valid with room
      · obtain rfl := mem_singleton.mp valid
        refine ⟨primaryRoom, room_of room, ?_, fun _ => .inr existing, by simp [strat]⟩
        intro same
        exact (ok.grouped strat).2 pHost (existing.trans (congrArg some same))
      · cases valid
    | none =>
      simp only [existing, mem_filter, decide_eq_true_eq] at valid
      exact ⟨primaryRoom, room_of valid.2.2, valid.2.1, fun _ => .inl existing, by simp [strat]⟩
  | spread =>
    simp only [strat, mem_filter, decide_eq_true_eq] at valid
    exact ⟨primaryRoom, room_of valid.2.2.2, valid.2.1, by simp [strat], fun _ => valid.2.2.1⟩

variable {mapping : Fin segs → Option (Fin hosts)}

theorem capacity_update {cap total}
    (pre : ∀ host, cap host = (total : Int) - load mapping host) (hole : mapping seg = none)
    (place host) :
    update cap place (cap place - 1) host =
      (total : Int) - load (update mapping seg (some place)) host := by
  rw [load_place hole]
  by_cases this : host = place
  · subst this
    simp [pre]
    omega
  · simp [this, Ne.symm this, pre]

theorem load_update_le {total} (pre : ∀ host, load mapping host ≤ total)
    (hole : mapping seg = none) {place} (room : load mapping place < total) (host) :
    load (update mapping seg (some place)) host ≤ total := by
  rw [load_place hole]
  split_ifs with this
  · subst this
    omega
  · exact pre host

theorem pair_of_assignOffer {other pHost mHost}
    (isPrim : (assignOffer state seg offer).primaryMapping other = some pHost)
    (isMirror : (assignOffer state seg offer).mirrorMapping other = some mHost) :
    (other = seg ∧ offer.pHost = pHost ∧ offer.mHost = mHost) ∨ other ≠ seg ∧
      state.primaryMapping other = some pHost ∧ state.mirrorMapping other = some mHost := by
  by_cases this : other = seg <;> simp_all [assignOffer]

theorem assign (ok : RepairingOk cfg state) (hole : state.primaryMapping seg = none)
    (adm : Admissible cfg state offer) :
    RepairingOk cfg (assignOffer state seg offer) := by
  have mirrorHole : state.mirrorMapping seg = none := (ok.both seg).mp hole
  constructor
  case primaryCapacity => exact capacity_update ok.primaryCapacity hole offer.pHost
  case mirrorCapacity => exact capacity_update ok.mirrorCapacity mirrorHole offer.mHost
  case primaryWithin => exact load_update_le ok.primaryWithin hole adm.primaryRoom
  case mirrorWithin => exact load_update_le ok.mirrorWithin mirrorHole adm.mirrorRoom
  case both =>
    intro other
    by_cases this : other = seg
    · simp [assignOffer, this]
    · simpa [assignOffer, this] using ok.both other
  case apart =>
    intro other host isPrim isMirror
    rcases pair_of_assignOffer isPrim isMirror with ⟨-, rfl, same⟩ | ⟨-, prim, mir⟩
    · exact adm.apart same
    · exact ok.apart other host prim mir
  case grouped =>
    intro strat
    obtain ⟨follows, away⟩ := ok.grouped strat
    -- The cache has the mirror host of the pair afterwards, and its other entries stay.
    have cached (host) : (assignOffer state seg offer).primaryToMirror host =
        if host = offer.pHost then some offer.mHost else state.primaryToMirror host := by
      rcases adm.grouped strat with is | is <;> by_cases this : host = offer.pHost <;>
        simp [assignOffer, is, this]
    refine ⟨fun other host isPrim => ?_, fun host => ?_⟩
    · rw [cached host]
      by_cases this : other = seg
      · subst this
        have same : offer.pHost = host := by simpa [assignOffer] using isPrim
        simp [assignOffer, same]
      · simp only [assignOffer, update_of_ne this] at isPrim ⊢
        rw [follows other host isPrim]
        split_ifs with isHost
        · subst isHost
          rcases adm.grouped strat with isNew | isOld
          · have noMirror := follows other _ isPrim
            rw [isNew, ← ok.both, isPrim] at noMirror
            cases noMirror
          · exact isOld
        · rfl
    · rw [cached host]
      split_ifs with isHost
      · simpa [isHost] using adm.apart
      · exact away host
  case used =>
    intro other pHost mHost isPrim isMirror
    rcases pair_of_assignOffer isPrim isMirror with ⟨-, rfl, rfl⟩ | ⟨-, prim, mir⟩
    · simp [assignOffer]
    · have pre := ok.used other pHost mHost prim mir
      by_cases isHost : pHost = offer.pHost
      · subst isHost
        simp [assignOffer, pre]
      · simpa [assignOffer, isHost] using pre
  case spread =>
    intro strat one two pHost mHost onePrimary twoPrimary oneMirror twoMirror
    have fresh := adm.spread strat
    rcases pair_of_assignOffer onePrimary oneMirror with ⟨isOne, rfl, rfl⟩ | ⟨-, prim, mir⟩ <;>
      rcases pair_of_assignOffer twoPrimary twoMirror with ⟨isTwo, same, same'⟩ | ⟨-, prim', mir'⟩
    · rw [isOne, isTwo]
    · exact absurd (ok.used two _ _ prim' mir') fresh
    · subst same same'
      exact absurd (ok.used one _ _ prim mir) fresh
    · exact ok.spread strat one two pHost mHost prim prim' mir mir'

theorem assignOffer_hole {other} (ne : other ≠ seg) :
    (assignOffer state seg offer).primaryMapping other = state.primaryMapping other := by
  simp [assignOffer, ne]

/-! ### The repair operators -/

variable {free : List (Fin segs)}

theorem repairGreedy (ok : RepairingOk cfg state) (nodup : free.Nodup)
    (holes : ∀ seg ∈ free, state.primaryMapping seg = none) :
    RepairingOk cfg (cfg.repairGreedy setOrder state free) := by
  induction free generalizing state with
  | nil => exact ok
  | cons seg rest ih =>
    obtain ⟨notRest, nodup⟩ := nodup_cons.mp nodup
    have restHoles (other) (mem : other ∈ rest) : state.primaryMapping other = none := holes other (mem_cons_of_mem _ mem)
    unfold SolverConfig.repairGreedy
    rw [foldl_cons]
    split
    · next offer best =>
      have adm := ok.admissible (argmin_mem (mem_def.mpr best))
      refine ih (ok.assign (holes seg mem_cons_self) adm) nodup ?_
      intro other mem
      have ne : other ≠ seg := by
        rintro rfl
        exact notRest mem
      rw [assignOffer_hole ne]
      exact restHoles other mem
    · exact ih ok nodup restHoles

theorem mem_candidates {cand} (mem : cand ∈ cfg.candidates state setOrder free) : cand.seg ∈ free ∧
      ∀ offer ∈ cand.options, offer ∈ cfg.offers state setOrder cand.seg := by
  obtain ⟨seg, segMem, rfl⟩ := mem_map.mp mem
  exact ⟨segMem, fun offer => (mem_insertionSort _).mp⟩

theorem holes_erase (nodup : free.Nodup) (holes : ∀ seg ∈ free, state.primaryMapping seg = none) :
    ∀ other ∈ free.erase seg, (assignOffer state seg offer).primaryMapping other = none := by
  intro other mem
  obtain ⟨ne, pre⟩ := nodup.mem_erase_iff.mp mem
  rw [assignOffer_hole ne]
  exact holes other pre

section

variable (ok : RepairingOk cfg state) (nodup : free.Nodup)
  (holes : ∀ seg ∈ free, state.primaryMapping seg = none)
include ok nodup holes

theorem repairMostConstrained {rounds} :
    RepairingOk cfg (cfg.repairMostConstrained setOrder rounds free state) := by
  induction rounds generalizing free state with
  | zero => exact ok
  | succ rounds ih =>
    unfold SolverConfig.repairMostConstrained
    split
    · exact ok
    · next cand first =>
      have mem := (mem_insertionSort _).mp (mem_of_mem_head? first)
      obtain ⟨segMem, isOffer⟩ := mem_candidates mem
      have hole := holes cand.seg (mem_of_mem_shuffle segMem)
      cases options : cand.options with
      | nil =>
        exact ih ok (nodup.erase _) fun other otherMem =>
          holes other (mem_of_mem_erase otherMem)
      | cons offer rest =>
        have adm := ok.admissible (isOffer offer (by simp [options]))
        exact ih (ok.assign hole adm) (nodup.erase _) (holes_erase nodup holes)

theorem repairRegret {rounds} : RepairingOk cfg (cfg.repairRegret setOrder rounds free state) := by
  induction rounds generalizing free state with
  | zero => exact ok
  | succ rounds ih =>
    unfold SolverConfig.repairRegret
    split
    · exact ok
    · next cand worst =>
      obtain ⟨segMem, isOffer⟩ := mem_candidates (argmax_mem (mem_def.mpr worst))
      have hole := holes cand.seg segMem
      cases options : cand.options with
      | nil => exact ok
      | cons offer rest =>
        have adm := ok.admissible (isOffer offer (by simp [options]))
        exact ih (ok.assign hole adm) (nodup.erase _) (holes_erase nodup holes)

end

end RepairingOk

/-! ### Rounds of the search -/

theorem load_kept (gone : Finset (Fin segs)) (place : Fin segs → Fin hosts) (host : Fin hosts) :
    load (fun seg => if seg ∈ gone then none else some (place seg)) host =
      ((finRange segs).filter (· ∉ gone)).countP fun seg => place seg = host := by
  rw [load_eq_countP, countP_filter]
  refine countP_congr fun seg _ => ?_
  by_cases isDestroyed : seg ∈ gone <;> simp [isDestroyed]

theorem load_kept_le (gone : Finset (Fin segs)) (place : Fin segs → Fin hosts) (host : Fin hosts) :
    load (fun seg => if seg ∈ gone then none else some (place seg)) host ≤
      load (fun seg => some (place seg)) host := by
  refine Finset.card_le_card fun seg mem => ?_
  simp only [Finset.mem_filter, Finset.mem_univ, true_and] at mem ⊢
  split_ifs at mem
  exact mem

variable {placement : Placement segs hosts}

theorem startRepairing_ok (valid : Valid cfg placement) (gone : Finset (Fin segs)) :
    RepairingOk cfg (cfg.startRepairing placement gone) := by
  have kept {seg pHost mHost}
      (isPrim : (cfg.startRepairing placement gone).primaryMapping seg = some pHost)
      (isMirror : (cfg.startRepairing placement gone).mirrorMapping seg = some mHost) :
      seg ∉ gone ∧ placement.primary seg = pHost ∧ placement.mirror seg = mHost := by
    simp_all [startRepairing]
  constructor
  case primaryCapacity => exact fun host => by rw [startRepairing, load_kept]
  case mirrorCapacity => exact fun host => by rw [startRepairing, load_kept]
  case primaryWithin => exact fun host => (load_kept_le _ _ host).trans (valid.primaries host).le
  case mirrorWithin => exact fun host => (load_kept_le _ _ host).trans (valid.mirrors host).le
  case both =>
    intro seg
    simp [startRepairing]
  case apart =>
    intro seg host isPrim isMirror
    obtain ⟨-, prim, mir⟩ := kept isPrim isMirror
    exact valid.apart seg (prim.trans mir.symm)
  case grouped =>
    intro strat
    have members : ∀ host other, other ∈ ((finRange segs).filter (· ∉ gone)).filter
        (fun seg => placement.primary seg = host) →
          other ∉ gone ∧ placement.primary other = host := by
      intro host other mem
      simpa [and_comm] using mem
    refine ⟨fun seg host isPrim => ?_, fun host is => ?_⟩
    · obtain ⟨isKept, prim⟩ : seg ∉ gone ∧ placement.primary seg = host := by
        simpa [startRepairing] using isPrim
      -- The last segment of the group has the mirror host of the whole group.
      obtain ⟨last, lastIs⟩ : ∃ last, (((finRange segs).filter (· ∉ gone)).filter
          fun seg => placement.primary seg = host).getLast? = some last := by
        rw [← ne_none_iff_exists', ne_eq, getLast?_eq_none_iff]
        exact ne_nil_of_mem (a := seg) (by simp [isKept, prim])
      obtain ⟨_, lastPrimary⟩ := members host last (mem_of_getLast? lastIs)
      have same := valid.grouped strat seg last (prim.trans lastPrimary.symm)
      simp only [startRepairing, if_neg isKept, lastIs, map_some, same]
    · obtain ⟨last, lastIs, mir⟩ := map_eq_some_iff.mp is
      obtain ⟨_, lastPrimary⟩ := members host last (mem_of_getLast? lastIs)
      exact valid.apart last (lastPrimary.trans mir.symm)
  case used =>
    intro seg pHost mHost isPrim isMirror
    obtain ⟨isKept, prim, mir⟩ := kept isPrim isMirror
    simp only [startRepairing, List.mem_toFinset, List.mem_map]
    exact ⟨seg, by simp [isKept, prim], mir⟩
  case spread =>
    intro strat one two pHost mHost onePrimary twoPrimary oneMirror twoMirror
    obtain ⟨-, prim, mir⟩ := kept onePrimary oneMirror
    obtain ⟨-, prim', mir'⟩ := kept twoPrimary twoMirror
    exact valid.spread strat one two (prim.trans prim'.symm) (mir.trans mir'.symm)

theorem applyRepair_ok (valid : Valid cfg placement) (choice gone) :
    RepairingOk cfg (cfg.applyRepair placement choice gone) := by
  have start := startRepairing_ok valid gone
  have nodup : (shuffle choice.repairPicks ((finRange segs).filter (· ∈ gone))).Nodup :=
    shuffle_nodup ((nodup_finRange segs).filter _)
  have holes : ∀ seg ∈ shuffle choice.repairPicks ((finRange segs).filter (· ∈ gone)),
      (cfg.startRepairing placement gone).primaryMapping seg = none := by
    intro seg mem
    have isDestroyed : seg ∈ gone := by simpa using mem_of_mem_shuffle mem
    simp [startRepairing, isDestroyed]
  unfold applyRepair
  split
  · exact start.repairMostConstrained nodup holes
  · exact start.repairRegret nodup holes
  · exact start.repairGreedy nodup holes

theorem RepairingOk.valid {state} (ok : RepairingOk cfg state)
    (le : segs = hosts * cfg.targetPrimaryLoad) {prim mir}
    (primaryIs : state.primaryMapping = fun seg => some (prim seg))
    (mirrorIs : state.mirrorMapping = fun seg => some (mir seg)) :
    Valid cfg ⟨prim, mir⟩ where
  apart seg same :=
    ok.apart seg (prim seg) (by simp [primaryIs])
      (by simp [mirrorIs, show prim seg = mir seg from same])
  primaries := load_eq_of_le (fun _ => rfl) (by simpa using le) (primaryIs ▸ ok.primaryWithin)
  mirrors := load_eq_of_le (fun _ => rfl) (by simpa using le) (mirrorIs ▸ ok.mirrorWithin)
  grouped strat seg other same := by
    have first := (ok.grouped strat).1 seg (prim seg) (by simp [primaryIs])
    have snd := (ok.grouped strat).1 other (prim other) (by simp [primaryIs])
    rw [show prim seg = prim other from same, ← snd, mirrorIs] at first
    exact some.inj first
  spread strat seg other samePrimary sameMirror :=
    ok.spread strat seg other (prim seg) (mir seg) (by simp [primaryIs])
      (by simp [primaryIs, show prim seg = prim other from samePrimary])
      (by simp [mirrorIs]) (by simp [mirrorIs, show mir seg = mir other from sameMirror])

variable {choice : Choice segs}

theorem destroyCount_le (some_segment : 1 ≤ segs) (possible : choice.Possible) :
    destroyCount segs choice.fraction ≤ segs := by
  refine max_le some_segment ?_
  rw [Int.toNat_le, ← Int.cast_le (R := ℚ)]
  refine (Int.floor_le _).trans ?_
  obtain ⟨_, _⟩ := possible
  have nonneg : (0 : ℚ) ≤ segs := Nat.cast_nonneg segs
  have : (segs : ℚ) * choice.fraction ≤ segs * 1 :=
    mul_le_mul_of_nonneg_left (by linarith) nonneg
  simpa using this

theorem applyDestroy_ok (some_segment : 1 ≤ segs) (placement) (possible : choice.Possible) :
    ∃ gone, cfg.applyDestroy placement choice = .ok gone := by
  have random : ∃ gone, cfg.destroyRandom placement choice = .ok gone := by
    unfold destroyRandom
    cases cfg.strategy with
    | grouped =>
      have few := destroyCount_le some_segment possible
      simp [not_lt.mpr few]
    | spread => exact ⟨_, rfl⟩
  unfold applyDestroy
  split
  · exact ⟨_, rfl⟩
  · unfold destroyBadSegments
    dsimp only
    split_ifs
    · exact random
    · exact ⟨_, rfl⟩
  · exact ⟨_, rfl⟩
  · exact random

theorem eq_of_complete {mapping : Fin segs → Option (Fin hosts)}
    {total : Fin segs → Fin hosts} (is : complete mapping = .ok total) :
    mapping = fun seg => some (total seg) := by
  unfold complete at is
  split_ifs at is with full
  rw [← Except.ok.inj is]
  simp

structure SearchingOk (config : SolverConfig segments hosts initialHosts) (greedyCost : Nat)
    (state : Searching segments hosts) : Prop where
  current : Valid config state.current
  cost : state.cost = config.calculateCost state.current
  best : Valid config state.best
  bestCost : state.bestCost = config.calculateCost state.best
  bound : state.bestCost ≤ greedyCost

section

variable (some_segment : 1 ≤ segs) (le : segs = hosts * cfg.targetPrimaryLoad)
  {greedyCost : Nat} {state : Searching segs hosts} (ok : SearchingOk cfg greedyCost state)
include some_segment le ok

theorem round_ok (possible : choice.Possible) :
    ∃ after, cfg.round state choice = .ok after ∧ SearchingOk cfg greedyCost after := by
  obtain ⟨destroyed, destroyedIs⟩ :=
    @applyDestroy_ok _ _ _ cfg _ some_segment state.current possible
  have repaired := applyRepair_ok ok.current choice destroyed
  unfold round
  rw [destroyedIs]
  dsimp only [bind, Except.bind]
  split
  · next prim mir primaryIs mirrorIs =>
    have valid := repaired.valid le (eq_of_complete primaryIs) (eq_of_complete mirrorIs)
    split_ifs with accepted better
    · exact ⟨_, rfl, valid, rfl, valid, rfl, (le_of_lt better).trans ok.bound⟩
    · exact ⟨_, rfl, valid, rfl, ok.best, ok.bestCost, ok.bound⟩
    · exact ⟨state, rfl, ok⟩
  · exact ⟨state, rfl, ok⟩

theorem rounds_ok {choices : List (Choice segs)} (possible : ∀ choice ∈ choices, choice.Possible) :
    ∃ after, choices.foldlM cfg.round state = .ok after ∧ SearchingOk cfg greedyCost after := by
  induction choices generalizing state with
  | nil => exact ⟨state, rfl, ok⟩
  | cons choice rest ih =>
    obtain ⟨_, taken, middleOk⟩ :=
      round_ok some_segment le ok (possible choice mem_cons_self)
    obtain ⟨after, others, afterOk⟩ := ih middleOk
      fun other mem => possible other (mem_cons_of_mem _ mem)
    refine ⟨after, ?_, afterOk⟩
    rw [foldlM_cons, taken]
    exact others

end

/-- For every configuration that the solver accepts and all that is drawn at random, the search
raises no error. Its placement is valid, its cost is the number of primaries and mirrors away
from their initial host, and it is at most the cost of the greedy construction. -/
theorem lnsSolve_ok (config : SolverConfig segments hosts initialHosts)
    (accepted : config.init = .ok ()) (some_segment : 1 ≤ segments)
    (_within : hosts ≤ initialHosts) {choices : List (Choice segments)}
    (possible : ∀ choice ∈ choices, choice.Possible) :
    ∃ placement cost greedy greedyCost,
      config.lnsSolve choices = .ok (placement, cost) ∧ Valid config placement ∧
      cost = config.calculateCost placement ∧
      config.greedySolve = .ok (greedy, greedyCost) ∧ cost ≤ greedyCost := by
  obtain ⟨_, le, _⟩ := init_eq_ok accepted
  obtain ⟨greedy, solved, valid⟩ := greedySolve_ok accepted some_segment
  obtain ⟨final, searched, ok⟩ := rounds_ok some_segment le
    (⟨valid, rfl, valid, rfl, le_rfl⟩ : SearchingOk config (config.calculateCost greedy)
      ⟨greedy, config.calculateCost greedy, greedy, config.calculateCost greedy⟩) possible
  refine ⟨final.best, final.bestCost, greedy, _, ?_, ok.best, ok.bestCost, solved, ok.bound⟩
  simp only [lnsSolve, solved, searched, checked, validateSolution_of_valid ok.best, bind,
    Except.bind, if_true]

/-- A round that destroys whole groups. -/
def groupRound : Choice 4 where
  fraction := 1 / 5
  destroyMethod := 0
  repairMethod := 1
  destroyPicks := id
  seedSeg := 2
  repairPicks := id
  setOrder _ := id
  coin := true

theorem lnsSolve_ok_threeToTwoHosts : ∃ placement cost greedy greedyCost,
      threeToTwoHosts.lnsSolve [groupRound] = .ok (placement, cost) ∧
      Valid threeToTwoHosts placement ∧ cost = threeToTwoHosts.calculateCost placement ∧
      threeToTwoHosts.greedySolve = .ok (greedy, greedyCost) ∧ cost ≤ greedyCost := by
  refine lnsSolve_ok threeToTwoHosts (by decide) (by decide) (by decide) fun choice mem => ?_
  obtain rfl := mem_singleton.mp mem
  exact ⟨by norm_num [groupRound], by norm_num [groupRound]⟩

end SolverConfig

end Greengage.Rebalance
