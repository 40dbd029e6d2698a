import Greengage.Rebalance.Greedy
import Mathlib.Tactic.Linarith

/-!
Contract: the balancing of the primaries.

A host is light if it has at most its share of primaries at the start, else heavy. As long as
a segment that must move is left, some light host still has a deficit: it takes the segments
of heavy hosts and of hosts outside the target. The segments of light hosts come last and all
stay.
-/

namespace Greengage.Rebalance.SolverConfig

open Option Function List Foundations Finset

variable {segments hosts initialHosts : Nat} {config cfg : SolverConfig segments hosts initialHosts}

def origin (config : SolverConfig segments hosts initialHosts) (seg : Fin segments) :
    Option (Fin hosts) :=
  config.onTarget (config.initialPrimaryMapping seg)

variable {host : Fin initialHosts} {target : Fin hosts}

theorem onTarget_eq_some_iff : cfg.onTarget host = some target ↔ host.val = target.val := by
  unfold onTarget
  split_ifs with lt
  · simp [Fin.ext_iff]
  · simp only [false_iff]
    omega

theorem isDecomissioned_iff : cfg.isDecomissioned host = true ↔ cfg.onTarget host = none := by
  simp [isDecomissioned, onTarget]

theorem initialLoad_eq (same : host.val = target.val) :
    cfg.initialLoad host = load cfg.origin target := by
  have lt : cfg.isDecomissioned host = false := by
    simp [isDecomissioned, same]
  have members (seg) : cfg.initialPrimaryMapping seg = host ↔ cfg.origin seg = some target := by
    rw [origin, onTarget_eq_some_iff, ← same, Fin.ext_iff]
  unfold initialLoad
  rw [if_neg (by simp [lt]), load_eq_countP]
  exact countP_congr fun seg _ => by simp [members seg]

def Light (config : SolverConfig segments hosts initialHosts) (host : Fin hosts) : Prop :=
  load config.origin host ≤ config.targetPrimaryLoad

theorem mustMove_eq_false_iff {seg} :
    cfg.mustMove seg = false ↔ ∃ host, cfg.origin seg = some host ∧ cfg.Light host := by
  unfold mustMove
  cases place : cfg.origin seg with
  | none =>
    have decomissioned := isDecomissioned_iff.mpr place
    simp [decomissioned]
  | some host =>
    have same := onTarget_eq_some_iff.mp place
    have lt : cfg.isDecomissioned (cfg.initialPrimaryMapping seg) = false := by
      rw [← Bool.not_eq_true, isDecomissioned_iff, ← origin, place]
      simp
    simp [lt, Light, initialLoad_eq same]

/-- Only a segment that must move leaves its host, and it goes to a light one. -/
def Moves (config : SolverConfig segments hosts initialHosts) (seg : Fin segments)
    (host : Fin hosts) : Prop :=
  config.origin seg = some host ∨ config.mustMove seg = true ∧ config.Light host

/-- The state with a segment at a host. -/
abbrev Balancing.placed (state : Balancing segments hosts) (seg : Fin segments)
    (host : Fin hosts) : Balancing segments hosts where
  primaryMapping := update state.primaryMapping seg (some host)
  currentLoad := update state.currentLoad host (state.currentLoad host + 1)
  deficit := update state.deficit host (state.deficit host - 1)

/-- The invariant of the loop over the primaries, before the segments that are left. -/
structure Balanced (config : SolverConfig segments hosts initialHosts)
    (rest : List (Fin segments)) (state : Balancing segments hosts) : Prop where
  nodup : rest.Nodup
  deficit : ∀ host, state.deficit host =
    (config.targetPrimaryLoad : Int) - load config.origin host - state.currentLoad host
  currentLoad : ∀ host, state.currentLoad host = load state.primaryMapping host
  light : ∀ host, config.Light host → state.currentLoad host +
    rest.countP (fun seg => config.origin seg = some host) ≤ config.targetPrimaryLoad
  heavy : ∀ host, ¬config.Light host → state.currentLoad host =
    min config.targetPrimaryLoad (load config.origin host -
      rest.countP (fun seg => config.origin seg = some host))
  holes : ∀ seg, seg ∈ rest ↔ state.primaryMapping seg = none

namespace Balanced

variable {rest : List (Fin segments)} {state : Balancing segments hosts} {seg : Fin segments}

theorem countP_le (cfg : SolverConfig segments hosts initialHosts) (nodup : rest.Nodup)
    (host : Fin hosts) :
    rest.countP (fun seg => cfg.origin seg = some host) ≤ load cfg.origin host := by
  rw [countP_eq_length_filter, ← toFinset_card_of_nodup (nodup.filter _)]
  exact card_le_card fun seg mem => by simp_all

theorem sum_currentLoad (ok : Balanced cfg rest state) :
    ∑ host, state.currentLoad host + rest.length = segments := by
  have left : rest.toFinset = univ.filter fun seg =>
      ¬(state.primaryMapping seg).isSome = true := by
    ext seg
    simp [ok.holes seg]
  have split := card_filter_add_card_filter_not (s := univ)
    fun seg => (state.primaryMapping seg).isSome = true
  rw [← left, toFinset_card_of_nodup ok.nodup, card_univ, Fintype.card_fin] at split
  rw [sum_congr rfl fun host _ => ok.currentLoad host, sum_load]
  exact split

variable {host : Fin hosts}

theorem countP_eq_of_left (nodup : rest.Nodup)
    (others : ∀ other, cfg.mustMove other = false → other ∈ rest) (light : cfg.Light host) :
    rest.countP (fun seg => cfg.origin seg = some host) = load cfg.origin host := by
  apply le_antisymm (countP_le cfg nodup host)
  rw [countP_eq_length_filter, ← toFinset_card_of_nodup (nodup.filter _)]
  refine card_le_card fun other mem => ?_
  have from_host : cfg.origin other = some host := by simpa using mem
  simp [from_host, others other (mustMove_eq_false_iff.mpr ⟨host, from_host, light⟩)]

section

variable (ok : Balanced cfg (seg :: rest) state)
include ok

/-- As long as a segment that must move is left and the others are all left, some host has a
deficit. -/
theorem exists_deficit (le : segments = hosts * cfg.targetPrimaryLoad)
    (moves : cfg.mustMove seg)
    (others : ∀ other, cfg.mustMove other = false → other ∈ seg :: rest) :
    ∃ host, 0 < state.deficit host := by
  by_contra none
  rw [not_exists] at none
  obtain ⟨left, leftDef⟩ := @exists_eq (Fin hosts → Nat) (fun host =>
    (seg :: rest).countP (fun seg => cfg.origin seg = some host))
  have heavy : ∀ host, ¬cfg.Light host → state.currentLoad host =
      min cfg.targetPrimaryLoad (load cfg.origin host - left host) := fun host => by
    rw [leftDef]
    exact ok.heavy host
  -- What is placed and what is left fill every host.
  have atLeast (host) : cfg.targetPrimaryLoad ≤ state.currentLoad host + left host := by
    by_cases light : cfg.Light host
    · have allLeft : left host = load cfg.origin host := by
        rw [leftDef]
        exact countP_eq_of_left ok.nodup others light
      have filled := none host
      rw [ok.deficit host] at filled
      omega
    · have many : cfg.targetPrimaryLoad < load cfg.origin host := Nat.lt_of_not_le light
      have := heavy host light
      omega
  have := ok.sum_currentLoad
  have := length_eq_sum_countP cfg.origin (seg :: rest)
  have all : ∑ host, (state.currentLoad host + left host) +
      (seg :: rest).countP (fun seg => cfg.origin seg = Option.none) =
        ∑ _host : Fin hosts, cfg.targetPrimaryLoad := by
    rw [sum_add_distrib, sum_const, card_univ, Fintype.card_fin, smul_eq_mul,
      leftDef]
    beta_reduce
    omega
  have sums : ∑ _host : Fin hosts, cfg.targetPrimaryLoad ≤
      ∑ host, (state.currentLoad host + left host) :=
    Finset.sum_le_sum fun host _ => atLeast host
  cases place : cfg.origin seg with
  | none =>
    rw [countP_cons_of_pos (by simp [place])] at all
    omega
  | some host =>
    have notLight : ¬cfg.Light host := fun light => by
      rw [mustMove_eq_false_iff.mpr ⟨host, place, light⟩] at moves
      cases moves
    have := (sum_eq_sum_iff_of_le fun host _ => atLeast host).mp
      (by omega) host (mem_univ host)
    have here : 0 < left host := by
      rw [leftDef]
      exact countP_pos_iff.mpr ⟨seg, mem_cons_self, by simp [place]⟩
    have many : cfg.targetPrimaryLoad < load cfg.origin host := Nat.lt_of_not_le notLight
    have := heavy host notLight
    omega

theorem place (host) (light : ∀ other, cfg.Light other → state.currentLoad other +
      (if other = host then 1 else 0) + rest.countP (fun seg => cfg.origin seg = some other) ≤
      cfg.targetPrimaryLoad) (heavy : ∀ other, ¬cfg.Light other → state.currentLoad other +
      (if other = host then 1 else 0) = min cfg.targetPrimaryLoad (load cfg.origin other -
      rest.countP (fun seg => cfg.origin seg = some other))) :
    Balanced cfg rest (state.placed seg host) := by
  have hole : state.primaryMapping seg = none := (ok.holes seg).mp mem_cons_self
  obtain ⟨fresh, nodup⟩ := nodup_cons.mp ok.nodup
  have increased (other) : update state.currentLoad host (state.currentLoad host + 1)
      other = state.currentLoad other + if other = host then 1 else 0 := by
    by_cases this : other = host
    · subst this
      simp
    · simp [this]
  constructor
  case nodup => exact nodup
  case deficit =>
    intro other
    have pre := ok.deficit other
    simp only [increased]
    by_cases this : other = host
    · subst this
      rw [update_self, if_pos rfl]
      omega
    · rw [update_of_ne this, if_neg this]
      omega
  case currentLoad =>
    intro other
    simp only [increased, load_place hole, ok.currentLoad other]
    simp [eq_comm]
  case light =>
    intro other isLight
    simpa only [increased] using light other isLight
  case heavy =>
    intro other isHeavy
    simpa only [increased] using heavy other isHeavy
  case holes =>
    intro other
    have pre := ok.holes other
    by_cases this : other = seg
    · subst this
      simp [fresh]
    · simpa [this] using pre

theorem keep (origin : cfg.origin seg = some host)
    (room : state.currentLoad host < cfg.targetPrimaryLoad) :
    Balanced cfg rest (state.placed seg host) := by
  have count (other) : (seg :: rest).countP (fun seg => cfg.origin seg = some other) =
      rest.countP (fun seg => cfg.origin seg = some other) + if other = host then 1 else 0 := by
    simp [countP_cons, origin, eq_comm]
  refine ok.place host (fun other isLight => ?_) (fun other isHeavy => ?_)
  · have pre := ok.light other isLight
    rw [count other] at pre
    omega
  · have pre := ok.heavy other isHeavy
    have bound := countP_le cfg ok.nodup other
    rw [count other] at pre bound
    by_cases this : other = host
    · subst this
      rw [if_pos rfl] at pre bound ⊢
      omega
    · simpa [this] using pre

theorem take (room : 0 < state.deficit host) (full : ∀ other, cfg.origin seg = some other →
      state.currentLoad other = cfg.targetPrimaryLoad) :
    Balanced cfg rest (state.placed seg host) := by
  obtain ⟨_, nodup⟩ := nodup_cons.mp ok.nodup
  rw [ok.deficit host] at room
  refine ok.place host (fun other isLight => ?_) (fun other isHeavy => ?_)
  · have pre := ok.light other isLight
    have bound := countP_le cfg nodup other
    rw [countP_cons] at pre
    by_cases this : other = host
    · subst this
      rw [if_pos rfl]
      omega
    · rw [if_neg this]
      omega
  · have this : other ≠ host := by
      rintro rfl
      exact isHeavy (by unfold Light; omega)
    have pre := ok.heavy other isHeavy
    rw [if_neg this, pre]
    by_cases origin : cfg.origin seg = some other
    · have := full other origin
      have bound := countP_le cfg ok.nodup other
      rw [countP_cons_of_pos (by simp [origin])] at pre bound ⊢
      omega
    · rw [countP_cons_of_neg (by simp [origin]), add_zero]

theorem step (le : segments = hosts * cfg.targetPrimaryLoad)
    (others : cfg.mustMove seg = true → ∀ other, cfg.mustMove other = false →
      other ∈ seg :: rest) :
    ∃ host, cfg.placePrimary state seg = .ok (state.placed seg host) ∧
      Balanced cfg rest (state.placed seg host) ∧ cfg.Moves seg host := by
  -- A segment that finds no room at its own host is one that must move.
  have needy : (∀ other, cfg.origin seg = some other →
      ¬state.currentLoad other < cfg.targetPrimaryLoad) →
      ∃ host, (finRange hosts).argmax state.deficit = some host ∧
        0 < state.deficit host ∧ (∀ other, cfg.origin seg = some other →
          state.currentLoad other = cfg.targetPrimaryLoad) ∧ cfg.Moves seg host := by
    intro noRoom
    have moves : cfg.mustMove seg := by
      by_contra stays
      obtain ⟨other, origin, isLight⟩ := mustMove_eq_false_iff.mp (Bool.not_eq_true _ ▸ stays)
      have light := ok.light other isLight
      have := noRoom other origin
      rw [countP_cons_of_pos (by simp [origin])] at light
      omega
    obtain ⟨pos, isPositive⟩ := ok.exists_deficit le moves (others moves)
    obtain ⟨host, chosen⟩ : ∃ host, (finRange hosts).argmax state.deficit = some host := by
      rw [← isSome_iff_exists, ← ne_none_iff_isSome, ne_eq, argmax_eq_none]
      exact ne_nil_of_mem (mem_finRange pos)
    have room := isPositive.trans_le (le_of_mem_argmax (mem_finRange pos) chosen)
    have isLight : cfg.Light host := by
      rw [ok.deficit host] at room
      unfold Light
      omega
    refine ⟨host, chosen, room, fun other origin => ?_, .inr ⟨moves, isLight⟩⟩
    · have isHeavy : ¬cfg.Light other := fun isLight => by
        rw [mustMove_eq_false_iff.mpr ⟨other, origin, isLight⟩] at moves
        cases moves
      have heavy := ok.heavy other isHeavy
      have := noRoom other origin
      omega
  unfold placePrimary primaryHost
  cases origin : cfg.origin seg with
  | none =>
    obtain ⟨host, chosen, room, full, moves⟩ := needy (by simp [origin])
    rw [SolverConfig.origin] at origin
    simp only [origin, chosen]
    exact ⟨host, rfl, ok.take room full, moves⟩
  | some own =>
    have target : cfg.onTarget (cfg.initialPrimaryMapping seg) = some own := origin
    by_cases room : state.currentLoad own < cfg.targetPrimaryLoad
    · simp only [target, room]
      exact ⟨own, rfl, ok.keep origin room, .inl origin⟩
    · obtain ⟨host, chosen, deficit, full, moves⟩ := needy (by
        intro other same
        rw [origin, some.injEq] at same
        exact same ▸ room)
      simp only [target, room, chosen]
      exact ⟨host, rfl, ok.take deficit full, moves⟩

end

end Balanced

instance : Std.Total config.Before where
  total seg other := by
    unfold Before
    cases config.mustMove seg <;> cases config.mustMove other <;> simp [Nat.le_total]

instance : IsTrans (Fin segments) config.Before where
  trans seg middle other := by
    unfold Before
    cases config.mustMove seg <;> cases config.mustMove middle <;> cases config.mustMove other <;>
      simp
    all_goals omega

theorem segmentOrder_perm : cfg.segmentOrder.Perm (finRange segments) :=
  perm_insertionSort _ _

theorem balanced_start : Balanced cfg cfg.segmentOrder cfg.startBalancing := by
  have all (host) : cfg.segmentOrder.countP (fun seg => cfg.origin seg = some host) =
      load cfg.origin host := by
    rw [segmentOrder_perm.countP_eq, load_eq_countP]
  constructor
  case nodup => exact segmentOrder_perm.nodup_iff.mpr (nodup_finRange segments)
  case deficit =>
    intro host
    by_cases lt : host.val < initialHosts
    · have counted : cfg.initialLoad ⟨host.val, lt⟩ = load cfg.origin host :=
        initialLoad_eq rfl
      simp [startBalancing, lt, counted]
    · -- no segment is at a host that is new
      have empty : load cfg.origin host = 0 := card_eq_zero.mpr
        (filter_eq_empty_iff.mpr fun seg _ here => by
          have := onTarget_eq_some_iff.mp here
          omega)
      simp [startBalancing, lt, empty]
  case currentLoad =>
    intro host
    simp [startBalancing, load]
  case light =>
    intro host light
    rw [all host, startBalancing]
    exact (zero_add _).trans_le light
  case heavy =>
    intro host _
    rw [all host, startBalancing]
    simp
  case holes =>
    intro seg
    simp [startBalancing, segmentOrder_perm.mem_iff]

theorem balance_loop (le : segments = hosts * cfg.targetPrimaryLoad) {pre rest}
    (order : cfg.segmentOrder = pre ++ rest) {state} (ok : Balanced cfg rest state)
    (moves : ∀ seg, ∀ host ∈ state.primaryMapping seg, cfg.Moves seg host) :
    ∃ after, rest.foldlM cfg.placePrimary state = .ok after ∧ Balanced cfg [] after ∧
      ∀ seg, ∀ host ∈ after.primaryMapping seg, cfg.Moves seg host := by
  induction rest generalizing pre state with
  | nil => exact ⟨state, rfl, ok, moves⟩
  | cons seg rest ih =>
    have sorted : cfg.segmentOrder.Pairwise cfg.Before :=
      pairwise_insertionSort _ _
    have others : cfg.mustMove seg = true →
        ∀ other, cfg.mustMove other = false → other ∈ seg :: rest := by
      intro moves other stays
      have mem : other ∈ cfg.segmentOrder :=
        segmentOrder_perm.mem_iff.mpr (mem_finRange other)
      rw [order, mem_append] at mem
      refine mem.resolve_left fun early => ?_
      rw [order] at sorted
      have first := (pairwise_append.mp sorted).2.2 other early seg mem_cons_self
      simp [Before, moves, stays] at first
    obtain ⟨host, placed, middleOk, moved⟩ := ok.step le others
    obtain ⟨after, taken, afterOk⟩ :=
      ih (order.trans (append_cons pre seg rest)) middleOk fun other target => by
        by_cases this : other = seg
        · subst this
          simpa using fun same => same ▸ moved
        · simpa [this] using moves other target
    refine ⟨after, ?_, afterOk⟩
    rw [foldlM_cons, placed]
    exact taken

theorem balancePrimaries_ok (le : segments = hosts * cfg.targetPrimaryLoad) :
    ∃ mapping, cfg.balancePrimaries = .ok mapping ∧ (∀ seg, (mapping seg).isSome = true) ∧
      (∀ host, load mapping host = cfg.targetPrimaryLoad) ∧
      ∀ seg, ∀ host ∈ mapping seg, cfg.Moves seg host := by
  obtain ⟨after, taken, ok, moves⟩ :=
    balance_loop le (nil_append cfg.segmentOrder).symm balanced_start nofun
  have full (seg) : (after.primaryMapping seg).isSome = true := by
    rw [← ne_none_iff_isSome]
    exact fun hole => not_mem_nil ((ok.holes seg).mpr hole)
  refine ⟨after.primaryMapping, ?_, full, load_eq_of_le full ?_ fun host => ?_, moves⟩
  · rw [balancePrimaries, taken]
    rfl
  · simpa using le
  · rw [← ok.currentLoad host]
    by_cases light : cfg.Light host
    · simpa using ok.light host light
    · rw [ok.heavy host light]
      exact min_le_left _ _

theorem complete_eq_ok {mapping : Fin segments → Option (Fin hosts)}
    (full : ∀ seg, (mapping seg).isSome = true) :
    ∃ total, complete mapping = .ok total ∧ mapping = fun seg => some (total seg) := by
  refine ⟨fun seg => (mapping seg).get (full seg), dif_pos full, funext fun seg => ?_⟩
  simp

theorem init_eq_ok (acc : cfg.init = .ok ()) :
    2 ≤ hosts ∧ segments = hosts * cfg.targetPrimaryLoad ∧
      (cfg.strategy = .spread → cfg.targetPrimaryLoad ≤ hosts - 1) := by
  unfold init at acc
  split_ifs at acc with single uneven crowded
  refine ⟨by omega, ?_, fun isSpread => ?_⟩
  · exact (Nat.mul_div_cancel' (Nat.dvd_of_mod_eq_zero (not_not.mp uneven))).symm
  · by_contra many
    exact crowded ⟨isSpread, by omega⟩

/-! ### The fewest moves -/

/-- The primaries of a host, in any mapping to host numbers. -/
def primaries (mapping : Fin segments → Nat) (host : Nat) : Nat :=
  (Finset.univ.filter fun seg => mapping seg = host).card

/-- The segments that a mapping takes away from their host. -/
def changed (config : SolverConfig segments hosts initialHosts) (mapping : Fin segments → Nat) :
    Nat :=
  (Finset.univ.filter fun seg => mapping seg ≠ (config.initialPrimaryMapping seg).val).card

def targets (hosts : Nat) (mapping : Fin segments → Nat) (seg : Fin segments) :
    Option (Fin hosts) :=
  if inside : mapping seg < hosts then some ⟨mapping seg, inside⟩ else none

variable {mapping : Fin segments → Nat}

theorem targets_eq_some {seg} : targets hosts mapping seg = some target ↔
    mapping seg = target.val := by
  unfold targets
  split_ifs with lt
  · simp [Fin.ext_iff]
  · simp only [false_iff]
    omega

theorem load_targets : load (targets hosts mapping) target = primaries mapping target.val := by
  simp only [load, primaries, targets_eq_some]

theorem changed_add (le : segments = hosts * cfg.targetPrimaryLoad)
    (shares : ∀ host : Fin hosts, primaries mapping host = segments / hosts) :
    cfg.changed mapping +
      ∑ host, load (agreeing (targets hosts mapping) cfg.origin) host = segments := by
  have total := sum_load (targets hosts mapping)
  rw [sum_congr rfl fun host _ => load_targets.trans (shares host), sum_const,
    card_univ, Fintype.card_fin, smul_eq_mul] at total
  have placed := card_filter_eq_iff.mp (total.symm.trans (le.symm.trans (by simp)))
  have stays (seg) : (agreeing (targets hosts mapping) cfg.origin seg).isSome = true ↔
      mapping seg = (cfg.initialPrimaryMapping seg).val := by
    obtain ⟨host, here⟩ := isSome_iff_exists.mp (placed seg (mem_univ seg))
    have same := targets_eq_some.mp here
    constructor
    · intro agrees
      obtain ⟨_, both⟩ := isSome_iff_exists.mp agrees
      obtain ⟨there, from_⟩ := agreeing_eq_some.mp both
      exact (targets_eq_some.mp there).trans (onTarget_eq_some_iff.mp from_).symm
    · intro back
      have origin : cfg.origin seg = some host := by
        rw [origin, onTarget_eq_some_iff, ← back, same]
      rw [agreeing_eq_some.mpr ⟨here, origin⟩]
      rfl
  rw [sum_load, filter_congr fun seg _ => stays seg, changed, add_comm,
    card_filter_add_card_filter_not, card_univ, Fintype.card_fin]

/-- `_balance_primaries` gives every target host its share, and no mapping that does so takes
fewer segments away from their host. -/
theorem balancePrimaries_fewest (accepted : config.init = .ok ()) :
    ∃ primary : Fin segments → Fin hosts,
      config.balancePrimaries = .ok (fun seg => some (primary seg)) ∧
      (∀ host : Fin hosts, primaries (fun seg => (primary seg).val) host = segments / hosts) ∧
      ∀ other : Fin segments → Nat,
        (∀ host : Fin hosts, primaries other host = segments / hosts) →
          config.changed (fun seg => (primary seg).val) ≤ config.changed other := by
  obtain ⟨_, le, _⟩ := init_eq_ok accepted
  obtain ⟨_, run, full, shares, moves⟩ := balancePrimaries_ok le
  obtain ⟨primary, -, rfl⟩ := complete_eq_ok full
  have same : targets hosts (fun seg => (primary seg).val) = fun seg => some (primary seg) :=
    funext fun seg => dif_pos (primary seg).isLt
  have primaryShares (host : Fin hosts) :
      primaries (fun seg => (primary seg).val) host = segments / hosts := by
    rw [← load_targets, same]
    exact shares host
  refine ⟨primary, run, primaryShares, fun other otherShares => ?_⟩
  have mine := changed_add le primaryShares
  have := changed_add le otherShares
  rw [same] at mine
  -- A light host keeps all that it had, and a heavy one keeps nothing but what it had.
  have most : ∑ host, load (agreeing (targets hosts other) config.origin) host ≤
      ∑ host, load (agreeing (fun seg => some (primary seg)) config.origin) host := by
    refine Finset.sum_le_sum fun host _ => (load_agreeing_le ..).trans ?_
    rw [load_targets, otherShares host]
    refine Eq.trans_le (by rw [shares host]; rfl) (le_load_agreeing ?_)
    by_cases light : config.Light host
    · refine .inr fun seg here => ?_
      rcases moves seg _ rfl with own | ⟨leaves, -⟩
      · exact own.symm.trans here
      · rw [mustMove_eq_false_iff.mpr ⟨host, here, light⟩] at leaves
        cases leaves
    · refine .inl fun seg here => ?_
      rcases moves seg host here with own | ⟨-, isLight⟩
      · exact own
      · exact absurd isLight light
  omega

def threeToTwoHosts : SolverConfig 4 2 3 where
  initialPrimaryMapping := ![0, 0, 2, 2]
  initialMirrorMapping := ![2, 2, 0, 0]
  strategy := .grouped

theorem balancePrimaries_fewest_threeToTwoHosts : ∃ primary : Fin 4 → Fin 2,
    threeToTwoHosts.balancePrimaries = .ok (fun seg => some (primary seg)) ∧
    (∀ host : Fin 2, primaries (fun seg => (primary seg).val) host = 4 / 2) ∧
    ∀ other : Fin 4 → Nat, (∀ host : Fin 2, primaries other host = 4 / 2) →
      threeToTwoHosts.changed (fun seg => (primary seg).val) ≤ threeToTwoHosts.changed other :=
  balancePrimaries_fewest (by decide)

end Greengage.Rebalance.SolverConfig
