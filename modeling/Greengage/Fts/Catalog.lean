import Greengage.Fts.Prober

/-!
Contract: what `gp_segment_configuration` records of a mirrored cluster and what an update
does to it.

Does not own: when the prober updates the catalog.
-/

namespace Greengage.Fts

open List SegmentConfig

def rowsOf (catalog : List SegmentConfig) (segindex : Nat) : List SegmentConfig :=
  catalog.filter (·.segindex == segindex)

/-- The catalog has exactly two rows for a content: a primary that is up and a mirror of the
same mode, in sync only if the mirror is up. -/
structure Recorded (catalog : List SegmentConfig) (primary mirror : SegmentConfig) : Prop where
  rows : (rowsOf catalog primary.segindex).Perm [primary, mirror]
  primary_role : primary.role = .primary
  primary_alive : primary.alive = true
  mirror_role : mirror.role = .mirror
  mode : mirror.inSync = primary.inSync
  alive_of_inSync : primary.inSync = true → mirror.alive = true

/-- Every content of the catalog is recorded as a primary with a mirror. -/
structure Mirrored (catalog : List SegmentConfig) : Prop where
  dbids : (catalog.map (·.dbid)).Nodup
  pairs : ∀ row ∈ catalog, ∃ primary mirror,
    primary.segindex = row.segindex ∧ Recorded catalog primary mirror

/-- A change of rows that keeps their keys and changes only the rows of two dbids. -/
structure Rewrites (change : SegmentConfig → SegmentConfig) (primary mirror : SegmentConfig) :
    Prop where
  dbid : ∀ row, (change row).dbid = row.dbid
  segindex : ∀ row, (change row).segindex = row.segindex
  others : ∀ row, row.dbid ≠ primary.dbid → row.dbid ≠ mirror.dbid → change row = row

variable {cat : List SegmentConfig} {primary prim mirror mir row other : SegmentConfig}
  {change : SegmentConfig → SegmentConfig}

theorem Rewrites.refl (prim mir) : Rewrites id prim mir :=
  ⟨fun _ => rfl, fun _ => rfl, fun _ _ _ => rfl⟩

theorem Rewrites.rowsOf_map (rewrites : Rewrites change prim mir) (segindex) :
    rowsOf (cat.map change) segindex = (rowsOf cat segindex).map change := by
  simp only [rowsOf, filter_map, Function.comp_def, rewrites.segindex]

namespace Recorded

section

variable (recorded : Recorded cat prim mir)
include recorded

theorem mem_iff : row ∈ cat ∧ row.segindex = prim.segindex ↔ row = prim ∨ row = mir := by
  have mem := recorded.rows.mem_iff (a := row)
  simpa [rowsOf] using mem

theorem primary_mem : prim ∈ cat :=
  (recorded.mem_iff.mpr (.inl rfl)).1

theorem mirror_mem : mir ∈ cat :=
  (recorded.mem_iff.mpr (.inr rfl)).1

theorem mirror_segindex : mir.segindex = prim.segindex :=
  (recorded.mem_iff.mpr (.inr rfl)).2

theorem ne : prim ≠ mir := by
  intro same
  have := recorded.primary_role.symm.trans (same ▸ recorded.mirror_role)
  contradiction

theorem unique {primary' mirror'} (again : Recorded cat primary' mirror')
    (same : primary'.segindex = prim.segindex) : primary' = prim ∧ mirror' = mir := by
  have primaryIs := recorded.mem_iff.mp ⟨again.primary_mem, same⟩
  have mirrorIs := recorded.mem_iff.mp ⟨again.mirror_mem, again.mirror_segindex.trans same⟩
  have primaryRole := again.primary_role
  have mirrorRole := again.mirror_role
  constructor
  · rcases primaryIs with rfl | rfl
    · rfl
    · simp [recorded.mirror_role] at primaryRole
  · rcases mirrorIs with rfl | rfl
    · simp [recorded.primary_role] at mirrorRole
    · rfl

end

end Recorded

theorem eq_of_dbid (dbids : (cat.map (·.dbid)).Nodup) (mem : row ∈ cat)
    (mem' : other ∈ cat) (same : row.dbid = other.dbid) : row = other :=
  inj_on_of_nodup_map dbids mem mem' same

theorem Recorded.dbid_ne (recorded : Recorded cat prim mir)
    (dbids : (cat.map (·.dbid)).Nodup) : mir.dbid ≠ prim.dbid :=
  fun same => recorded.ne (eq_of_dbid dbids recorded.primary_mem recorded.mirror_mem same.symm)

variable {primary' mirror' : SegmentConfig}

theorem Recorded.rewrite_other (recorded : Recorded cat prim mir)
    (rest : Recorded cat primary' mirror') (dbids : (cat.map (·.dbid)).Nodup)
    (rewrites : Rewrites change prim mir) (apart : primary'.segindex ≠ prim.segindex) :
    Recorded (cat.map change) primary' mirror' := by
  have unchanged : ∀ row ∈ cat, row.segindex ≠ prim.segindex → change row = row := by
    intro row mem ne
    refine rewrites.others row (fun same => ne ?_) (fun same => ne ?_)
    · rw [eq_of_dbid dbids mem recorded.primary_mem same]
    · rw [eq_of_dbid dbids mem recorded.mirror_mem same, recorded.mirror_segindex]
  have rows := rest.rows.map change
  rw [map_cons, map_cons, map_nil, unchanged _ rest.primary_mem apart,
    unchanged _ rest.mirror_mem (rest.mirror_segindex ▸ apart)] at rows
  exact { rest with rows := by rw [rewrites.rowsOf_map]; exact rows }

theorem Mirrored.rewrite (mirrored : Mirrored cat) (recorded : Recorded cat prim mir)
    (rewrites : Rewrites change prim mir)
    (again : Recorded (cat.map change) primary' mirror')
    (same : primary'.segindex = prim.segindex) : Mirrored (cat.map change) where
  dbids := by
    simp only [map_map, Function.comp_def, rewrites.dbid]
    exact mirrored.dbids
  pairs _ mem := by
    obtain ⟨pre, beforeMember, rfl⟩ := mem_map.mp mem
    rw [rewrites.segindex]
    by_cases apart : pre.segindex = prim.segindex
    · exact ⟨primary', mirror', same.trans apart.symm, again⟩
    · obtain ⟨primary'', mirror'', segindex, rest⟩ := mirrored.pairs pre beforeMember
      exact ⟨primary'', mirror'', segindex,
        recorded.rewrite_other rest mirrored.dbids rewrites (segindex ▸ apart)⟩

theorem SegmentConfig.updated_self (role alive inSync) :
    row.updated row.dbid role alive inSync = { row with role, alive, inSync } := by
  simp [updated]

theorem SegmentConfig.updated_other {dbid} (role alive inSync) (ne : row.dbid ≠ dbid) :
    row.updated dbid role alive inSync = row := by
  simp [updated, ne]

/-- The change that an update makes: what is written to the primary, then what is written to
the mirror. -/
def pairChange (primary mirror : SegmentConfig) (newPrimaryRole newMirrorRole : Role)
    (isInSync isPrimaryAlive isMirrorAlive : Bool) (row : SegmentConfig) : SegmentConfig :=
  let modeChanged := isInSync != primary.inSync
  let row :=
    if isPrimaryAlive != primary.alive || modeChanged then
      row.updated primary.dbid newPrimaryRole isPrimaryAlive isInSync
    else row
  if isMirrorAlive != mirror.alive || modeChanged then
    row.updated mirror.dbid newMirrorRole isMirrorAlive isInSync
  else row

theorem SegmentConfig.updated_dbid (dbid role alive inSync) :
    (row.updated dbid role alive inSync).dbid = row.dbid := by
  simp only [updated]
  split <;> rfl

theorem SegmentConfig.updated_segindex (dbid role alive inSync) :
    (row.updated dbid role alive inSync).segindex = row.segindex := by
  simp only [updated]
  split <;> rfl

section

variable {newPrimaryRole newMirrorRole : Role} {isInSync isPrimaryAlive isMirrorAlive : Bool}

theorem pairChange_rewrites :
    Rewrites (pairChange prim mir newPrimaryRole newMirrorRole isInSync isPrimaryAlive
      isMirrorAlive) prim mir where
  dbid row := by
    simp only [pairChange]
    split <;> split <;> simp only [updated_dbid]
  segindex row := by
    simp only [pairChange]
    split <;> split <;> simp only [updated_segindex]
  others row notPrimary notMirror := by
    simp only [pairChange, updated_other _ _ _ notPrimary, ite_self, updated_other _ _ _ notMirror]

theorem updateConfiguration_eq (primaryMem : prim ∈ cat) (mirrorMem : mir ∈ cat) :
    updateConfiguration cat prim mir newPrimaryRole newMirrorRole isInSync
        isPrimaryAlive isMirrorAlive =
      .ok (cat.map (pairChange prim mir newPrimaryRole newMirrorRole isInSync
        isPrimaryAlive isMirrorAlive)) := by
  have found (row) (mem : row ∈ cat) : cat.any (·.dbid == row.dbid) = true := any_eq_true.mpr ⟨row, mem, by simp⟩
  have foundAfter (role alive inSync) : (cat.map (updated prim.dbid role alive inSync)).any
        (·.dbid == mir.dbid) = true := by
    simp only [any_map, Function.comp_def, updated_dbid]
    exact found mir mirrorMem
  simp only [updateConfiguration, probeWalRepUpdateConfig, found prim primaryMem]
  generalize updatePrimary : (isPrimaryAlive != prim.alive || isInSync != prim.inSync) = first
  generalize updateMirror : (isMirrorAlive != mir.alive || isInSync != prim.inSync) = snd
  have change : pairChange prim mir newPrimaryRole newMirrorRole isInSync isPrimaryAlive
      isMirrorAlive = fun row =>
        let row :=
          if first then row.updated prim.dbid newPrimaryRole isPrimaryAlive isInSync else row
        if snd then row.updated mir.dbid newMirrorRole isMirrorAlive isInSync else row := by
    funext row
    simp only [pairChange, updatePrimary, updateMirror]
  rw [change]
  cases first <;> cases snd <;>
    simp [bind, Except.bind, found mir mirrorMem, foundAfter]

theorem pairChange_primary (dbidNe : mir.dbid ≠ prim.dbid) :
    pairChange prim mir newPrimaryRole newMirrorRole isInSync isPrimaryAlive isMirrorAlive prim =
      if isPrimaryAlive != prim.alive || isInSync != prim.inSync then
        { prim with role := newPrimaryRole, alive := isPrimaryAlive, inSync := isInSync }
      else prim := by
  have apart (role alive inSync) : (prim.updated prim.dbid role alive inSync).dbid ≠ mir.dbid := by
    rw [updated_dbid]
    exact dbidNe.symm
  simp only [pairChange]
  by_cases updatePrimary : (isPrimaryAlive != prim.alive || isInSync != prim.inSync) = true
  · simp only [updatePrimary, ↓reduceIte, updated_other _ _ _ (apart _ _ _), ite_self]
    exact updated_self ..
  · simp only [updatePrimary, Bool.false_eq_true, ↓reduceIte,
      updated_other _ _ _ dbidNe.symm, ite_self]

theorem pairChange_mirror (dbidNe : mir.dbid ≠ prim.dbid) :
    pairChange prim mir newPrimaryRole newMirrorRole isInSync isPrimaryAlive isMirrorAlive mir =
      if isMirrorAlive != mir.alive || isInSync != prim.inSync then
        { mir with role := newMirrorRole, alive := isMirrorAlive, inSync := isInSync }
      else mir := by
  simp only [pairChange, updated_other _ _ _ dbidNe, ite_self, updated_self]

variable (recorded : Recorded cat prim mir) (dbids : (cat.map (·.dbid)).Nodup)
include recorded dbids

theorem Recorded.update_keep (up : isInSync = true → isMirrorAlive = true) : Recorded
      (cat.map (pairChange prim mir .primary .mirror isInSync true isMirrorAlive))
      { prim with inSync := isInSync }
      { mir with alive := isMirrorAlive, inSync := isInSync } := by
  have dbidNe := recorded.dbid_ne dbids
  have primaryRow := @pairChange_primary _ _ .primary .mirror isInSync true isMirrorAlive dbidNe
  have mirrorRow := @pairChange_mirror _ _ .primary .mirror isInSync true isMirrorAlive dbidNe
  have rows := recorded.rows.map
    (pairChange prim mir .primary .mirror isInSync true isMirrorAlive)
  have primaryIs : pairChange prim mir .primary .mirror isInSync true isMirrorAlive prim =
      { prim with inSync := isInSync } := by
    obtain ⟨dbid, segindex, role, alive, inSync⟩ := prim
    obtain ⟨rfl, rfl⟩ : role = .primary ∧ alive = true :=
      ⟨recorded.primary_role, recorded.primary_alive⟩
    rw [primaryRow]
    cases isInSync <;> cases inSync <;> rfl
  have mirrorIs : pairChange prim mir .primary .mirror isInSync true isMirrorAlive mir =
      { mir with alive := isMirrorAlive, inSync := isInSync } := by
    rw [mirrorRow, ← recorded.mode]
    obtain ⟨dbid, segindex, role, alive, inSync⟩ := mir
    obtain rfl : role = .mirror := recorded.mirror_role
    cases isInSync <;> cases inSync <;> cases isMirrorAlive <;> cases alive <;> rfl
  rw [map_cons, map_cons, map_nil, primaryIs, mirrorIs] at rows
  exact
    { rows := by rw [pairChange_rewrites.rowsOf_map]; exact rows
      primary_role := recorded.primary_role
      primary_alive := recorded.primary_alive
      mirror_role := recorded.mirror_role
      mode := rfl
      alive_of_inSync := up }

/-- The exchange of the roles of a pair that is in sync: the old mirror is the primary, the
failed primary is a mirror that is down. -/
theorem Recorded.update_flip (inSync : prim.inSync) : Recorded
      (cat.map (pairChange prim mir .mirror .primary false false mir.alive))
      { mir with role := .primary, inSync := false }
      { prim with role := .mirror, alive := false, inSync := false } := by
  have dbidNe := recorded.dbid_ne dbids
  have rows := recorded.rows.map
    (pairChange prim mir .mirror .primary false false mir.alive)
  rw [map_cons, map_cons, map_nil, pairChange_primary dbidNe, pairChange_mirror dbidNe] at rows
  simp only [inSync, Bool.bne_true, Bool.not_false, Bool.or_true] at rows
  exact
    { rows := by
        rw [pairChange_rewrites.rowsOf_map]
        have segindex := recorded.mirror_segindex
        simp only [segindex] at rows ⊢
        exact rows.trans (Perm.swap ..)
      primary_role := rfl
      primary_alive := recorded.alive_of_inSync inSync
      mirror_role := rfl
      mode := rfl
      alive_of_inSync := nofun }

theorem Recorded.update_keep_role (isInSync isMirrorAlive) (mem : row ∈ cat) :
    (pairChange prim mir .primary .mirror isInSync true isMirrorAlive row).role = row.role := by
  have dbidNe := recorded.dbid_ne dbids
  by_cases isPrim : row.dbid = prim.dbid
  · obtain rfl := eq_of_dbid dbids mem recorded.primary_mem isPrim
    rw [pairChange_primary dbidNe]
    split
    · exact recorded.primary_role.symm
    · rfl
  · by_cases isMirror : row.dbid = mir.dbid
    · obtain rfl := eq_of_dbid dbids mem recorded.mirror_mem isMirror
      rw [pairChange_mirror dbidNe]
      split
      · exact recorded.mirror_role.symm
      · rfl
    · rw [pairChange_rewrites.others row isPrim isMirror]

end

end Greengage.Fts
