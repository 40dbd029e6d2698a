import Greengage.Rebalance.Primaries

/-!
Contract: the mirrors of the greedy construction.

The grouped strategy builds an injection of primary hosts into mirror hosts without fixed
points; when only the primary host itself is free, another group makes room. The spread
strategy places the mirrors one by one within the loads; when it cannot go on it falls back
to a cyclic placement. Both end in a placement that is valid.
-/

namespace Greengage.Rebalance

open Function List Foundations Nat

variable {segments hosts initialHosts : Nat}

structure Valid (config : SolverConfig segments hosts initialHosts)
    (placement : Placement segments hosts) : Prop where
  apart : ∀ seg, placement.primary seg ≠ placement.mirror seg
  primaries : ∀ host, load (fun seg => some (placement.primary seg)) host = config.targetPrimaryLoad
  mirrors : ∀ host, load (fun seg => some (placement.mirror seg)) host = config.targetPrimaryLoad
  grouped : config.strategy = .grouped → ∀ seg other,
    placement.primary seg = placement.primary other → placement.mirror seg = placement.mirror other
  spread : config.strategy = .spread → ∀ seg other,
    placement.primary seg = placement.primary other →
      placement.mirror seg = placement.mirror other → seg = other

theorem length_groupOf (primary : Fin segments → Fin hosts) (host) :
    (groupOf primary host).length = load (fun seg => some (primary seg)) host := by
  rw [load_eq_countP, countP_eq_length_filter, groupOf]
  simp

namespace SolverConfig

variable {cfg : SolverConfig segments hosts initialHosts} {primary : Fin segments → Fin hosts}

/-- What the mirrors have to satisfy, once the primaries are placed. -/
structure MirrorsOk (config : SolverConfig segments hosts initialHosts)
    (primary : Fin segments → Fin hosts) (mapping : Fin segments → Option (Fin hosts)) :
    Prop where
  full : ∀ seg, (mapping seg).isSome = true
  apart : ∀ seg, mapping seg ≠ some (primary seg)
  loads : ∀ host, load mapping host = config.targetPrimaryLoad
  grouped : config.strategy = .grouped → ∀ seg other, primary seg = primary other →
    mapping seg = mapping other
  spread : config.strategy = .spread → ∀ seg other, primary seg = primary other →
    mapping seg = mapping other → seg = other

/-! ### Grouped -/

structure GroupingOk (config : SolverConfig segments hosts initialHosts)
    (primary : Fin segments → Fin hosts) (state : Grouping segments hosts) : Prop where
  assigned : ∀ pHost, pHost ∈ state.assigned ↔ (state.mirrorOf pHost).isSome = true
  apart : ∀ pHost, state.mirrorOf pHost ≠ some pHost
  single : ∀ mHost, load state.mirrorOf mHost ≤ 1
  mirrorLoad : ∀ mHost, state.mirrorLoad mHost =
    config.targetPrimaryLoad * load state.mirrorOf mHost
  mapping : ∀ seg, state.mirrorMapping seg = state.mirrorOf (primary seg)

namespace GroupingOk

variable {state : Grouping segments hosts} {pHost mHost : Fin hosts}

section

variable (ok : GroupingOk cfg primary state)
include ok

theorem fits_iff (pos : 0 < cfg.targetPrimaryLoad) :
    cfg.fits state mHost cfg.targetPrimaryLoad = true ↔ load state.mirrorOf mHost = 0 := by
  have load_le := ok.single mHost
  simp only [fits, ok.mirrorLoad mHost, decide_eq_true_eq]
  rcases le_one_iff_eq_zero_or_eq_one.mp load_le with zero | one
  · simp [zero]
  · simp only [one]
    omega

theorem assign (shares : ∀ host, (groupOf primary host).length = cfg.targetPrimaryLoad)
    (fresh : pHost ∉ state.assigned) (free : load state.mirrorOf mHost = 0) (apart :
      mHost ≠ pHost) :
    GroupingOk cfg primary (assignGroup primary state pHost mHost) := by
  have hole : state.mirrorOf pHost = none := by
    rw [← Option.not_isSome_iff_eq_none, ← ok.assigned pHost]
    exact fresh
  constructor
  case assigned =>
    intro other
    by_cases this : other = pHost
    · subst this
      simp [assignGroup]
    · simp [assignGroup, this, ok.assigned other]
  case apart =>
    intro other
    by_cases this : other = pHost
    · subst this
      simpa [assignGroup] using apart
    · simpa [assignGroup, this] using ok.apart other
  case single =>
    intro other
    simp only [assignGroup, load_place hole]
    by_cases this : mHost = other
    · subst this
      simp [free]
    · simpa [this] using ok.single other
  case mirrorLoad =>
    intro other
    simp only [assignGroup, load_place hole, shares]
    by_cases this : other = mHost
    · subst this
      simp [ok.mirrorLoad, mul_add]
    · simp [this, Ne.symm this, ok.mirrorLoad]
  case mapping =>
    intro seg
    by_cases this : primary seg = pHost
    · simp [assignGroup, this]
    · simp [assignGroup, this, ok.mapping seg]

theorem move (shares : ∀ host, (groupOf primary host).length = cfg.targetPrimaryLoad)
    {other cur alt} (has : state.mirrorOf other = some cur)
    (free : load state.mirrorOf alt = 0) (apart : alt ≠ other) :
    GroupingOk cfg primary (moveGroup primary state other cur alt) ∧
      load (moveGroup primary state other cur alt).mirrorOf cur = 0 := by
  have moved (mHost) : load (update state.mirrorOf other (some alt)) mHost +
      (if cur = mHost then 1 else 0) =
        load state.mirrorOf mHost + if alt = mHost then 1 else 0 := by
    have update := load_update state.mirrorOf other (some alt) mHost
    simpa [has] using update
  have ne : alt ≠ cur := by
    rintro rfl
    have := load_pos has
    omega
  have freed : load (update state.mirrorOf other (some alt)) cur = 0 := by
    have atCurrent := moved cur
    have := ok.single cur
    rw [if_pos rfl, if_neg ne] at atCurrent
    omega
  refine ⟨?_, freed⟩
  constructor
  case assigned =>
    intro pHost
    by_cases this : pHost = other
    · subst this
      simp [moveGroup, ok.assigned, has]
    · simp [moveGroup, this, ok.assigned]
  case apart =>
    intro pHost
    by_cases this : pHost = other
    · subst this
      simpa [moveGroup] using apart
    · simpa [moveGroup, this] using ok.apart pHost
  case single =>
    intro mHost
    have := ok.single mHost
    have atHost := moved mHost
    change load (update state.mirrorOf other (some alt)) mHost ≤ 1
    by_cases this : alt = mHost
    · subst this
      rw [if_pos rfl, free] at atHost
      omega
    · rw [if_neg this] at atHost
      omega
  case mirrorLoad =>
    intro mHost
    have atHost := moved mHost
    unfold moveGroup
    dsimp only
    by_cases isAlternative : mHost = alt
    · subst isAlternative
      rw [if_pos rfl, if_neg (Ne.symm ne), free] at atHost
      rw [update_self, update_of_ne ne, ok.mirrorLoad, free, shares]
      simp [show load (update state.mirrorOf other (some mHost)) mHost = 1 by omega]
    · rw [update_of_ne isAlternative]
      by_cases isCurrent : mHost = cur
      · subst isCurrent
        have one : load state.mirrorOf mHost = 1 := by
          have := ok.single mHost
          have := load_pos has
          omega
        rw [update_self, ok.mirrorLoad, one, shares, freed]
        simp
      · rw [if_neg (Ne.symm isCurrent), if_neg (Ne.symm isAlternative)] at atHost
        rw [update_of_ne isCurrent, ok.mirrorLoad]
        simp only [add_zero] at atHost
        rw [atHost]
  case mapping =>
    intro seg
    by_cases this : primary seg = other
    · simp [moveGroup, this]
    · simp [moveGroup, this, ok.mapping seg]

theorem exists_free (fresh : pHost ∉ state.assigned) : ∃ mHost, load state.mirrorOf mHost = 0 := by
  apply exists_load_eq_zero
  refine Finset.card_lt_card (Finset.ssubset_univ_iff.mpr fun all => fresh ?_)
  rw [ok.assigned pHost]
  have mem : pHost ∈ Finset.univ.filter fun host => (state.mirrorOf host).isSome = true := by
    rw [all]
    exact Finset.mem_univ pHost
  simpa using mem

theorem select (pos : 0 < cfg.targetPrimaryLoad)
    (shares : ∀ host, (groupOf primary host).length = cfg.targetPrimaryLoad)
    (fresh : pHost ∉ state.assigned) {after}
    (sel : cfg.selectGroupMirror primary state pHost = some (mHost, after)) :
    GroupingOk cfg primary after ∧ after.assigned = state.assigned ∧
      load after.mirrorOf mHost = 0 ∧ mHost ≠ pHost := by
  unfold selectGroupMirror at sel
  cases used : cfg.usedMirrorHost primary state pHost with
  | some host =>
    simp only [used] at sel
    obtain ⟨rfl, rfl⟩ := sel
    have mem := mem_of_mem_head? used
    rw [mem_insertionSort, mem_filter] at mem
    simp only [shares, ok.fits_iff pos, decide_eq_true_eq] at mem
    obtain ⟨_, wanted, free⟩ := mem
    refine ⟨ok, rfl, free, ?_⟩
    rintro rfl
    simp [mirrorUses] at wanted
  | none =>
    cases least : cfg.leastLoadedHost primary state pHost with
    | some host =>
      simp only [used, least] at sel
      obtain ⟨rfl, rfl⟩ := sel
      have mem := mem_of_mem_head? least
      rw [mem_insertionSort, mem_filter] at mem
      simp only [shares, ok.fits_iff pos, decide_eq_true_eq] at mem
      exact ⟨ok, rfl, mem.2.2, mem.2.1⟩
    | none =>
      simp only [used, least] at sel
      obtain ⟨_, _, found⟩ := exists_of_findSome?_eq_some sel
      obtain ⟨_, found⟩ := Option.ite_none_left_eq_some.mp found
      obtain ⟨cur, has, found⟩ := Option.bind_eq_some_iff.mp found
      obtain ⟨_, isFree, found⟩ := Option.bind_eq_some_iff.mp found
      obtain ⟨_, found⟩ := Option.ite_none_left_eq_some.mp found
      simp only [Option.some.injEq, Prod.mk.injEq] at found
      obtain ⟨rfl, rfl⟩ := found
      have fitting := find?_some isFree
      simp only [shares, ok.fits_iff pos, decide_eq_true_eq] at fitting
      obtain ⟨movedOk, freed⟩ := ok.move shares has fitting.2 fitting.1
      refine ⟨movedOk, rfl, freed, ?_⟩
      -- The only free host is the primary host itself, and the freed one was not free.
      rintro rfl
      obtain ⟨free, isFree⟩ := ok.exists_free fresh
      have := load_pos has
      have own : free ≠ cur := by
        rintro rfl
        omega
      have room : free ∈ (finRange hosts).filter fun mHost =>
          mHost ≠ cur ∧ cfg.fits state mHost (groupOf primary cur).length := by
        simp [shares, ok.fits_iff pos, isFree, own]
      rw [leastLoadedHost, head?_eq_none_iff, ← length_eq_zero_iff,
        length_insertionSort, length_eq_zero_iff] at least
      rw [least] at room
      cases room

end

end GroupingOk

theorem add_mod_of_lt {host step} (lt : host < hosts) (small : step < hosts) :
    (host + step) % hosts = if host + step < hosts then host + step else host + step - hosts := by
  split_ifs with below
  · exact mod_eq_of_lt below
  · rw [mod_eq_sub_mod (Nat.le_of_not_lt below), mod_eq_of_lt (by omega)]

section

variable (isGrouped : cfg.strategy = .grouped) (two : 2 ≤ hosts)
  (pos : 0 < cfg.targetPrimaryLoad)
  (le : segments = hosts * cfg.targetPrimaryLoad)
  (shares : ∀ host, load (fun seg => some (primary seg)) host = cfg.targetPrimaryLoad)
include isGrouped two le shares

theorem fillNaiveGrouped_ok : MirrorsOk cfg primary (fillNaiveGrouped primary) := by
  have next : ∀ host : Fin hosts, (host.val + 1) % hosts =
      if host.val + 1 < hosts then host.val + 1 else host.val + 1 - hosts :=
    fun host => add_mod_of_lt host.isLt two
  constructor
  case full => exact fun _ => rfl
  case apart =>
    intro seg
    simp only [fillNaiveGrouped, ne_eq, Option.some.injEq, Fin.ext_iff, next]
    split_ifs <;> omega
  case loads =>
    refine load_eq_of_le (fun _ => rfl) (by simpa using le) fun host => ?_
    refine @load_comp_le _ _ _ _ _ _ _ primary
      (fun host => some ⟨(host.val + 1) % hosts, mod_lt _ host.pos⟩) host ?_
      fun site => (shares site).le
    intro site other here there
    have same := congrArg Fin.val (Option.some.inj (here.trans there.symm))
    simp only [next] at same
    apply Fin.ext
    split_ifs at same <;> omega
  case grouped =>
    intro _ seg other same
    simp [fillNaiveGrouped, same]
  case spread => simp [isGrouped]

include pos

theorem assignMirrorsGrouped_ok {rest state} (ok : GroupingOk cfg primary state)
    (nodup : rest.Nodup) (fresh : ∀ pHost ∈ rest, pHost ∉ state.assigned)
    (all : ∀ seg, primary seg ∈ state.assigned ∨ primary seg ∈ rest) :
    MirrorsOk cfg primary (cfg.assignMirrorsGrouped primary rest state) := by
  have sizes : ∀ host, (groupOf primary host).length = cfg.targetPrimaryLoad := fun host => by
    rw [length_groupOf, shares]
  induction rest generalizing state with
  | nil =>
    have full : ∀ seg, (state.mirrorMapping seg).isSome = true := fun seg => by
      rw [ok.mapping, ← ok.assigned]
      exact (all seg).resolve_right not_mem_nil
    unfold assignMirrorsGrouped
    constructor
    case full => exact full
    case apart => exact fun seg => ok.mapping seg ▸ ok.apart (primary seg)
    case loads =>
      refine load_eq_of_le full (by simpa using le) fun host => ?_
      rw [show state.mirrorMapping = fun seg => state.mirrorOf (primary seg) from
        funext ok.mapping]
      exact load_comp_le (fun site other here there => eq_of_load_le_one (ok.single host) here there)
        fun site => (shares site).le
    case grouped =>
      intro _ seg other same
      rw [ok.mapping, ok.mapping, same]
    case spread => simp [isGrouped]
  | cons pHost rest ih =>
    obtain ⟨notRest, nodup⟩ := nodup_cons.mp nodup
    have pFresh := fresh pHost mem_cons_self
    unfold assignMirrorsGrouped
    cases sel : cfg.selectGroupMirror primary state pHost with
    | none => exact fillNaiveGrouped_ok isGrouped two le shares
    | some res =>
      obtain ⟨mHost, after⟩ := res
      obtain ⟨afterOk, sameAssigned, free, apart⟩ := ok.select pos sizes pFresh sel
      have notAssigned : pHost ∉ after.assigned := sameAssigned ▸ pFresh
      have ext : (assignGroup primary after pHost mHost).assigned =
          state.assigned ++ [pHost] := by rw [assignGroup, sameAssigned]
      refine ih (afterOk.assign sizes notAssigned free apart) nodup ?_ ?_
      · intro other otherRest
        rw [ext, mem_append, mem_singleton, not_or]
        refine ⟨fresh other (mem_cons_of_mem _ otherRest), ?_⟩
        rintro rfl
        exact notRest otherRest
      · intro seg
        rw [ext, mem_append, mem_singleton]
        have := all seg
        rw [mem_cons] at this
        tauto

theorem grouped_ok : MirrorsOk cfg primary
      (cfg.assignMirrorsGrouped primary (cfg.sortedPHosts primary) startGrouping) := by
  refine assignMirrorsGrouped_ok isGrouped two pos le shares ?_ ?_ ?_ ?_
  · exact
      { assigned := by simp [startGrouping]
        apart := by simp [startGrouping]
        single := by simp [startGrouping, load]
        mirrorLoad := by simp [startGrouping, load]
        mapping _ := rfl }
  · exact (perm_insertionSort _ _).nodup_iff.mpr (nodup_reverse.mpr (nodup_dedup _))
  · simp [startGrouping]
  · exact fun seg => .inr ((mem_insertionSort _).mpr (by simp [groupHosts]))

end

/-! ### Spread -/

structure SpreadingOk (config : SolverConfig segments hosts initialHosts)
    (primary : Fin segments → Fin hosts) (state : Spreading segments hosts) : Prop where
  mirrorLoad : ∀ mHost, state.mirrorLoad mHost = load state.mirrorMapping mHost
  within : ∀ mHost, load state.mirrorMapping mHost ≤ config.targetPrimaryLoad
  apart : ∀ seg, state.mirrorMapping seg ≠ some (primary seg)
  used : ∀ pHost mHost, mHost ∈ state.usedInGroup pHost ↔
    ∃ seg, primary seg = pHost ∧ state.mirrorMapping seg = some mHost
  distinct : ∀ seg other mHost, state.mirrorMapping seg = some mHost →
    state.mirrorMapping other = some mHost → primary seg = primary other → seg = other

namespace SpreadingOk

variable {state : Spreading segments hosts} {seg : Fin segments} {mHost : Fin hosts}

variable (primary state seg mHost) in
abbrev withdrawn : Spreading segments hosts where
  mirrorMapping := update state.mirrorMapping seg none
  mirrorLoad := update state.mirrorLoad mHost (state.mirrorLoad mHost - 1)
  usedInGroup := update state.usedInGroup (primary seg)
    ((state.usedInGroup (primary seg)).erase mHost)

theorem load_withdrawn (has : state.mirrorMapping seg = some mHost) (host) :
    load (update state.mirrorMapping seg none) host + (if mHost = host then 1 else 0) =
      load state.mirrorMapping host := by
  simpa [has] using load_update state.mirrorMapping seg none host

section

variable (ok : SpreadingOk cfg primary state)
include ok

theorem assign (hole : state.mirrorMapping seg = none) (apart : mHost ≠ primary seg)
    (unused : mHost ∉ state.usedInGroup (primary seg))
    (room : load state.mirrorMapping mHost < cfg.targetPrimaryLoad) :
    SpreadingOk cfg primary (assignMirror primary state seg mHost) := by
  have notUsed : ∀ other, primary other = primary seg →
      state.mirrorMapping other ≠ some mHost := fun other same is =>
    unused ((ok.used _ _).mpr ⟨other, same, is⟩)
  constructor
  case mirrorLoad =>
    intro other
    simp only [assignMirror, load_place hole]
    by_cases this : other = mHost
    · subst this
      simp [ok.mirrorLoad]
    · simp [this, Ne.symm this, ok.mirrorLoad]
  case within =>
    intro other
    have pre := ok.within other
    simp only [assignMirror, load_place hole]
    split_ifs with this
    · subst this
      omega
    · exact pre
  case apart =>
    intro other
    by_cases this : other = seg
    · subst this
      simpa [assignMirror] using apart
    · simpa [assignMirror, this] using ok.apart other
  case used =>
    intro pHost host
    have rest : (∃ other, primary other = pHost ∧
        update state.mirrorMapping seg (some mHost) other = some host) ↔
        (primary seg = pHost ∧ mHost = host) ∨
          ∃ other, primary other = pHost ∧ state.mirrorMapping other = some host := by
      constructor
      · rintro ⟨other, from_host, is⟩
        by_cases this : other = seg
        · subst this
          exact .inl ⟨from_host, by simpa using is⟩
        · exact .inr ⟨other, from_host, by simpa [this] using is⟩
      · rintro (⟨from_host, rfl⟩ | ⟨other, from_host, is⟩)
        · exact ⟨seg, from_host, by simp⟩
        · have this : other ≠ seg := by
            rintro rfl
            simp [hole] at is
          exact ⟨other, from_host, by simpa [this] using is⟩
    simp only [assignMirror, rest]
    rw [← ok.used pHost host]
    by_cases this : pHost = primary seg
    · subst this
      simp [eq_comm]
    · simp [this, Ne.symm this]
  case distinct =>
    intro one two host first snd same
    simp only [assignMirror] at first snd
    by_cases isOne : one = seg <;> by_cases isTwo : two = seg
    · rw [isOne, isTwo]
    · subst isOne
      rw [update_self, Option.some.injEq] at first
      rw [update_of_ne isTwo] at snd
      exact absurd (first ▸ snd) (notUsed two same.symm)
    · subst isTwo
      rw [update_self, Option.some.injEq] at snd
      rw [update_of_ne isOne] at first
      exact absurd (snd ▸ first) (notUsed one same)
    · rw [update_of_ne isOne] at first
      rw [update_of_ne isTwo] at snd
      exact ok.distinct one two host first snd same

theorem unassign (has : state.mirrorMapping seg = some mHost) :
    SpreadingOk cfg primary (withdrawn primary state seg mHost) := by
  have removed := load_withdrawn has
  constructor
  case mirrorLoad =>
    intro host
    have atHost := removed host
    by_cases this : host = mHost
    · subst this
      simp only [update_self, ok.mirrorLoad, if_true] at atHost ⊢
      omega
    · rw [if_neg (Ne.symm this)] at atHost
      simp only [update_of_ne this, ok.mirrorLoad]
      omega
  case within =>
    intro host
    have := removed host
    have := ok.within host
    dsimp only
    omega
  case apart =>
    intro other
    by_cases this : other = seg
    · simp [this]
    · simpa [this] using ok.apart other
  case used =>
    intro pHost host
    have rest : (∃ other, primary other = pHost ∧
        update state.mirrorMapping seg none other = some host) ↔
        (∃ other, primary other = pHost ∧ state.mirrorMapping other = some host) ∧
          ¬(primary seg = pHost ∧ mHost = host) := by
      constructor
      · rintro ⟨other, from_host, is⟩
        have this : other ≠ seg := by
          rintro rfl
          simp at is
        rw [update_of_ne this] at is
        refine ⟨⟨other, from_host, is⟩, ?_⟩
        rintro ⟨same, rfl⟩
        exact this (ok.distinct other seg mHost is has (from_host.trans same.symm))
      · rintro ⟨⟨other, from_host, is⟩, ne⟩
        have this : other ≠ seg := by
          rintro rfl
          exact ne ⟨from_host, Option.some.inj (has.symm.trans is)⟩
        exact ⟨other, from_host, by simpa [this] using is⟩
    rw [rest, ← ok.used pHost host]
    by_cases this : pHost = primary seg
    · subst this
      simp [and_comm, eq_comm]
    · simp [this, Ne.symm this]
  case distinct =>
    intro one two host first snd same
    have isOne : one ≠ seg := by
      rintro rfl
      simp at first
    have isTwo : two ≠ seg := by
      rintro rfl
      simp at snd
    simp only [update_of_ne isOne, update_of_ne isTwo] at first snd
    exact ok.distinct one two host first snd same

theorem isAvailable_iff : cfg.isAvailable primary state seg mHost = true ↔ mHost ≠ primary seg ∧
      mHost ∉ state.usedInGroup (primary seg) ∧
      load state.mirrorMapping mHost < cfg.targetPrimaryLoad := by
  simp [isAvailable, ok.mirrorLoad mHost]

theorem relocation (hole : state.mirrorMapping seg = none)
    (blocked : ∀ mHost, cfg.isAvailable primary state seg mHost = false) {relocation}
    (found : cfg.findRelocation primary state seg = some relocation) :
    ∃ after, relocate primary state relocation = .ok after ∧
      SpreadingOk cfg primary (assignMirror primary after seg relocation.candidateHost) ∧
      ∀ other, (assignMirror primary after seg relocation.candidateHost).mirrorMapping other = none ↔
        other ≠ seg ∧ state.mirrorMapping other = none := by
  obtain ⟨cand, isCandidate, found⟩ := exists_of_findSome?_eq_some found
  obtain ⟨otherSeg, _, found⟩ := exists_of_findSome?_eq_some found
  obtain ⟨has, found⟩ := Option.ite_none_right_eq_some.mp found
  obtain ⟨dest, destFound, rfl⟩ := Option.map_eq_some_iff.mp found
  have destFree := mem_of_find?_eq_some destFound
  have destOpen := find?_some destFound
  simp only [mem_filter, decide_eq_true_eq] at isCandidate destFree destOpen
  obtain ⟨_, candidateApart, candidateUnused⟩ := isCandidate
  rw [ok.mirrorLoad dest, cast_lt] at destFree
  have used : cand ∈ state.usedInGroup (primary otherSeg) :=
    (ok.used _ _).mpr ⟨otherSeg, rfl, has⟩
  have otherGroup : primary otherSeg ≠ primary seg := fun same => candidateUnused (same ▸ used)
  have otherSeg_ne : otherSeg ≠ seg := by
    rintro rfl
    exact otherGroup rfl
  have candidateFull : load state.mirrorMapping cand = cfg.targetPrimaryLoad := by
    have notAvailable := blocked cand
    rw [← Bool.not_eq_true, ok.isAvailable_iff] at notAvailable
    have := ok.within cand
    by_contra room
    exact notAvailable ⟨candidateApart, candidateUnused, by omega⟩
  have dest_ne : dest ≠ cand := by
    rintro rfl
    omega
  -- The other segment loses its mirror and gets the new one.
  have withoutOk := ok.unassign has
  obtain ⟨without, withoutIs⟩ := @exists_eq _ (withdrawn primary state otherSeg cand)
  have removed : ∀ host, load (withdrawn primary state otherSeg cand).mirrorMapping host + _ =
      _ := load_withdrawn has
  rw [← withoutIs] at withoutOk removed
  have withoutHole : without.mirrorMapping otherSeg = none := by simp [withoutIs]
  have movedOk : SpreadingOk cfg primary (assignMirror primary without otherSeg dest) := by
    refine withoutOk.assign withoutHole destOpen.1 ?_ ?_
    · rw [withoutIs]
      simp [destOpen.2]
    · have := removed dest
      omega
  have relocated : relocate primary state ⟨otherSeg, cand, dest⟩ =
      .ok (assignMirror primary without otherSeg dest) := by
    rw [relocate, if_pos used, withoutIs]
    simp [assignMirror]
  refine ⟨_, relocated, ?_, ?_⟩
  · refine movedOk.assign ?_ candidateApart ?_ ?_
    · simp [assignMirror, withoutIs, symm otherSeg_ne, hole]
    · simp [assignMirror, withoutIs, symm otherGroup, candidateUnused]
    · have atCandidate := removed cand
      simp only [assignMirror, load_place withoutHole, if_neg dest_ne, if_pos] at atCandidate ⊢
      omega
  · intro other
    by_cases isSeg : other = seg
    · simp [assignMirror, isSeg]
    · by_cases isOther : other = otherSeg
      · simp [assignMirror, isOther, otherSeg_ne, has]
      · simp [assignMirror, withoutIs, isSeg, isOther]

end

end SpreadingOk

def localIdx (primary : Fin segments → Fin hosts) (seg : Fin segments) : Nat :=
  (Finset.univ.filter fun other => other < seg ∧ primary other = primary seg).card

theorem countP_localIdx (seg) :
    ((finRange segments).countP fun other => other < seg ∧ primary other = primary seg) =
      localIdx primary seg := by
  rw [countP_eq_length_filter]
  rfl

theorem localIdx_lt_load (seg) :
    localIdx primary seg < load (fun seg => some (primary seg)) (primary seg) := by
  refine Finset.card_lt_card (Finset.ssubset_iff_of_subset ?_ |>.mpr ⟨seg, by simp, by simp⟩)
  intro _ _
  simp_all

theorem localIdx_strictMono {seg other} (pre : seg < other)
    (same : primary seg = primary other) : localIdx primary seg < localIdx primary other := by
  refine Finset.card_lt_card (Finset.ssubset_iff_of_subset ?_ |>.mpr
    ⟨seg, by simp [pre, same], by simp⟩)
  intro _ mem
  simp only [Finset.mem_filter, Finset.mem_univ, true_and] at mem ⊢
  exact ⟨mem.1.trans pre, mem.2.trans same⟩

theorem eq_of_localIdx_eq {seg other} (same : primary seg = primary other)
    (index : localIdx primary seg = localIdx primary other) : seg = other := by
  rcases lt_trichotomy seg other with pre | rfl | after
  · have := localIdx_strictMono pre same
    omega
  · rfl
  · have := localIdx_strictMono after same.symm
    omega

section

variable (isSpread : cfg.strategy = .spread) (few : cfg.targetPrimaryLoad ≤ hosts - 1)
  (le : segments = hosts * cfg.targetPrimaryLoad)
  (shares : ∀ host, load (fun seg => some (primary seg)) host = cfg.targetPrimaryLoad)
include isSpread few le shares

theorem fillNaiveSpread_ok : MirrorsOk cfg primary (fillNaiveSpread primary) := by
  have index_lt : ∀ seg, localIdx primary seg < cfg.targetPrimaryLoad := fun seg =>
    shares (primary seg) ▸ localIdx_lt_load seg
  have value (seg) : ((primary seg).val + 1 + localIdx primary seg) % hosts =
      if (primary seg).val + 1 + localIdx primary seg < hosts then
        (primary seg).val + 1 + localIdx primary seg
      else (primary seg).val + 1 + localIdx primary seg - hosts := by
    have := index_lt seg
    rw [add_assoc]
    exact add_mod_of_lt (primary seg).isLt (by omega)
  have away (seg) : ((primary seg).val + 1 + localIdx primary seg) % hosts ≠
      (primary seg).val := by
    rw [value seg]
    have := index_lt seg
    split_ifs <;> omega
  have mir (seg) : ∃ lt, fillNaiveSpread primary seg =
      some ⟨((primary seg).val + 1 + localIdx primary seg) % hosts, lt⟩ := by
    refine ⟨mod_lt _ (primary seg).pos, ?_⟩
    simp only [fillNaiveSpread, countP_localIdx, away, if_false, mod_mod]
  have full : ∀ seg, (fillNaiveSpread primary seg).isSome = true := fun _ => rfl
  -- Equal mirror hosts at equal steps come from equal primary hosts.
  have back : ∀ seg other, fillNaiveSpread primary seg = fillNaiveSpread primary other →
      (localIdx primary seg = localIdx primary other ↔ primary seg = primary other) := by
    intro seg other same
    obtain ⟨_, first⟩ := mir seg
    obtain ⟨_, snd⟩ := mir other
    rw [first, snd, Option.some.injEq, Fin.ext_iff] at same
    simp only [value] at same
    have := index_lt seg
    have := index_lt other
    split_ifs at same <;> omega
  constructor
  case full => exact full
  case apart =>
    intro seg
    obtain ⟨_, is⟩ := mir seg
    rw [is, ne_eq, Option.some.injEq, Fin.ext_iff]
    exact away seg
  case loads =>
    refine load_eq_of_le full (by simpa using le) fun host => ?_
    refine load_le_of_injOn (localIdx primary) (fun seg _ => index_lt seg) ?_
    intro seg other here there index
    exact eq_of_localIdx_eq ((back seg other (here.trans there.symm)).mp index) index
  case grouped => simp [isSpread]
  case spread =>
    intro _ seg other same mirrors
    exact eq_of_localIdx_eq same ((back seg other mirrors).mpr same)

theorem assignRest_ok {rest state} (ok : SpreadingOk cfg primary state) (nodup : rest.Nodup)
    (holes : ∀ seg, state.mirrorMapping seg = none ↔ seg ∈ rest) :
    ∃ mapping, cfg.assignRest primary rest state = .ok mapping ∧
      MirrorsOk cfg primary mapping := by
  induction rest generalizing state with
  | nil =>
    have full : ∀ seg, (state.mirrorMapping seg).isSome = true := fun seg => by
      rw [← Option.ne_none_iff_isSome, ne_eq, holes]
      exact not_mem_nil
    refine ⟨state.mirrorMapping, rfl, ?_⟩
    exact
      { full
        apart := ok.apart
        loads := load_eq_of_le full (by simpa using le) ok.within
        grouped := by simp [isSpread]
        spread _ seg other same mirrors := by
          obtain ⟨mHost, is⟩ := Option.isSome_iff_exists.mp (full seg)
          exact ok.distinct seg other mHost is (mirrors ▸ is) same }
  | cons seg rest ih =>
    obtain ⟨notRest, nodup⟩ := nodup_cons.mp nodup
    have hole : state.mirrorMapping seg = none := (holes seg).mpr mem_cons_self
    have left (other) : other ≠ seg ∧ state.mirrorMapping other = none ↔ other ∈ rest := by
      rw [holes other, mem_cons]
      constructor
      · exact fun ⟨ne, mem⟩ => mem.resolve_left ne
      · intro mem
        refine ⟨?_, .inr mem⟩
        rintro rfl
        exact notRest mem
    unfold assignRest
    cases best : ((finRange hosts).filter (cfg.isAvailable primary state seg)).argmin
        state.mirrorLoad with
    | some mHost =>
      have mem := argmin_mem (Option.mem_def.mpr best)
      obtain ⟨apart, unused, room⟩ := ok.isAvailable_iff.mp (mem_filter.mp mem).2
      refine ih (ok.assign hole apart unused room) nodup fun other => ?_
      rw [← left other]
      by_cases this : other = seg
      · simp [assignMirror, this]
      · simp [assignMirror, this]
    | none =>
      have blocked (mHost) : cfg.isAvailable primary state seg mHost = false := by
        have none := filter_eq_nil_iff.mp (argmin_eq_none.mp best) mHost (mem_finRange mHost)
        simpa using none
      cases found : cfg.findRelocation primary state seg with
      | none => exact ⟨_, rfl, fillNaiveSpread_ok isSpread few le shares⟩
      | some relocation =>
        obtain ⟨after, relocated, afterOk, afterHoles⟩ := ok.relocation hole blocked found
        dsimp only
        rw [relocated]
        exact ih afterOk nodup fun other => (afterHoles other).trans (left other)

end

theorem keepOriginals_loop {rest free : List (Fin segments)} {state}
    (ok : SpreadingOk cfg primary state) (nodup : (free ++ rest).Nodup)
    (holes : ∀ seg, state.mirrorMapping seg = none ↔ seg ∈ free ++ rest) {kept}
    (run : rest.foldl (fun (state, free) seg =>
      match cfg.originalMirror primary state seg with
      | some mHost => (assignMirror primary state seg mHost, free)
      | none => (state, free ++ [seg])) (state, free) = kept) :
    SpreadingOk cfg primary kept.1 ∧ kept.2.Nodup ∧
      ∀ seg, kept.1.mirrorMapping seg = none ↔ seg ∈ kept.2 := by
  induction rest generalizing state free with
  | nil =>
    subst run
    simp only [append_nil] at nodup holes
    exact ⟨ok, nodup, holes⟩
  | cons seg rest ih =>
    rw [foldl_cons] at run
    cases original : cfg.originalMirror primary state seg with
    | none =>
      simp only [original] at run
      rw [append_cons] at nodup holes
      exact ih ok nodup holes run
    | some mHost =>
      simp only [original] at run
      obtain ⟨_, available⟩ := Option.filter_eq_some_iff.mp original
      obtain ⟨apart, unused, room⟩ := ok.isAvailable_iff.mp available
      have hole : state.mirrorMapping seg = none := (holes seg).mpr (by simp)
      have nodup' := (perm_middle.nodup_iff.mp nodup)
      obtain ⟨notRest, nodup'⟩ := nodup_cons.mp nodup'
      refine ih (ok.assign hole apart unused room) nodup' (fun other => ?_) run
      by_cases this : other = seg
      · subst this
        simpa [assignMirror] using notRest
      · have pre := holes other
        simpa [assignMirror, this] using pre

theorem spread_ok (isSpread : cfg.strategy = .spread)
    (few : cfg.targetPrimaryLoad ≤ hosts - 1)
    (le : segments = hosts * cfg.targetPrimaryLoad)
    (shares : ∀ host, load (fun seg => some (primary seg)) host = cfg.targetPrimaryLoad) :
    ∃ mapping, cfg.assignRest primary (cfg.keepOriginals primary).2
      (cfg.keepOriginals primary).1 = .ok mapping ∧ MirrorsOk cfg primary mapping := by
  have startOk : SpreadingOk cfg primary (startSpreading : Spreading segments hosts) :=
    { mirrorLoad := by simp [startSpreading, load]
      within := by simp [startSpreading, load]
      apart := by simp [startSpreading]
      used := by simp [startSpreading]
      distinct := by simp [startSpreading] }
  have allLeft : (([] : List (Fin segments)) ++ finRange segments).Nodup :=
    nodup_finRange segments
  obtain ⟨keptOk, nodup, holes⟩ :=
    keepOriginals_loop startOk allLeft (by simp [startSpreading]) rfl
  exact assignRest_ok isSpread few le shares keptOk nodup holes

theorem validateSolution_of_valid {placement} (valid : Valid cfg placement) :
    cfg.validateSolution placement = true := by
  unfold validateSolution
  simp only [Bool.and_eq_true, all_eq_true, decide_eq_true_eq, Bool.or_eq_true]
  refine ⟨⟨fun seg _ => valid.apart seg, fun host _ => ?_⟩, fun host _ => .inr ?_⟩
  · rw [length_groupOf, length_groupOf, valid.primaries, valid.mirrors]
    omega
  · have members : ∀ seg ∈ groupOf placement.primary host, placement.primary seg = host := by
      simp [groupOf]
    cases strat : cfg.strategy with
    | grouped =>
      simp only [decide_eq_true_eq]
      rw [Finset.card_le_one]
      intro _ oneMem _ twoMem
      simp only [mem_toFinset, mem_map] at oneMem twoMem
      obtain ⟨seg, segMem, rfl⟩ := oneMem
      obtain ⟨other, otherMem, rfl⟩ := twoMem
      exact valid.grouped strat seg other ((members seg segMem).trans (members other otherMem).symm)
    | spread =>
      simp only [decide_eq_true_eq]
      refine toFinset_card_of_nodup (Nodup.map_on ?_ ?_)
      · intro seg segMem other otherMem same
        exact valid.spread strat seg other
          ((members seg segMem).trans (members other otherMem).symm) same
      · exact (nodup_finRange segments).filter _

theorem greedySolve_ok (acc : cfg.init = .ok ()) (some_segment : 1 ≤ segments) :
    ∃ placement, cfg.greedySolve = .ok (placement, cfg.calculateCost placement) ∧
      Valid cfg placement := by
  obtain ⟨two, le, few⟩ := init_eq_ok acc
  have pos : 0 < cfg.targetPrimaryLoad := by
    by_contra none
    rw [Nat.eq_zero_of_not_pos none] at le
    omega
  obtain ⟨_, balanced, primaryFull, primaryShares, -⟩ := balancePrimaries_ok le
  obtain ⟨primary, primaryIs, rfl⟩ := complete_eq_ok primaryFull
  obtain ⟨_, assigned, mirrorsOk⟩ : ∃ mapping,
      cfg.assignMirrorHosts primary = .ok mapping ∧ MirrorsOk cfg primary mapping := by
    unfold assignMirrorHosts
    cases strat : cfg.strategy with
    | grouped => exact ⟨_, rfl, grouped_ok strat two pos le primaryShares⟩
    | spread => exact spread_ok strat (few strat) le primaryShares
  obtain ⟨mir, mirrorIs, rfl⟩ := complete_eq_ok mirrorsOk.full
  have valid : Valid cfg ⟨primary, mir⟩ :=
    { apart := fun seg same => mirrorsOk.apart seg (congrArg some same.symm)
      primaries := primaryShares
      mirrors := mirrorsOk.loads
      grouped strat seg other same :=
        Option.some.inj (mirrorsOk.grouped strat seg other same)
      spread strat seg other same mirrors :=
        mirrorsOk.spread strat seg other same (congrArg some mirrors) }
  refine ⟨⟨primary, mir⟩, ?_, valid⟩
  simp only [greedySolve, balanced, primaryIs, assigned, mirrorIs, checked,
    validateSolution_of_valid valid, bind, Except.bind, if_true]

end SolverConfig

end Greengage.Rebalance
