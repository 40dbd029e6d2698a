import Greengage.Foundations.Results
import Mathlib.Algebra.GroupWithZero.Nat
import Mathlib.Data.Finset.Card

/-!
Contract: the distribution keys for which both sides of a join are redistributed.

Does not own: hashing. A segment is any function of the operator families of the keys and of the
hash values of a row. A class has one value in the rows of a side.
-/

namespace Greengage.Motion

open List

open Foundations (map_eq_of_forall₂)

/-- Both classes are set by `update_mergeclause_eclasses`. -/
structure RestrictInfo where
  hashjoinoperator : Option Nat
  leftEc : Nat
  rightEc : Nat
  rightRelids : Finset Nat

structure DistributionKey where
  eclass : Nat
  opfamily : Nat
  deriving DecidableEq

structure CdbPathLocus where
  distkeys : List DistributionKey
  numsegments : Nat
  deriving DecidableEq

section

-- `get_compatible_hash_operators_and_family`, and the relations of the first path
variable (compatible : Nat → Option Nat) (relids : Finset Nat)

def RestrictInfo.opfamily (rinfo : RestrictInfo) : Option Nat :=
  rinfo.hashjoinoperator.bind compatible

/-- The classes of the first and of the second path. -/
def RestrictInfo.sides (rinfo : RestrictInfo) : Nat × Nat :=
  if rinfo.rightRelids ⊆ relids then (rinfo.rightEc, rinfo.leftEc)
  else (rinfo.leftEc, rinfo.rightEc)

def hasEclass (distkeys : List DistributionKey) (eclass : Nat) : Bool :=
  distkeys.any (·.eclass == eclass)

/-- A clause, with the keys of both paths so far. -/
def addClause (a b : List DistributionKey) (rinfo : RestrictInfo) :
    List DistributionKey × List DistributionKey :=
  match rinfo.opfamily compatible with
  | none => (a, b)
  | some opfamily =>
    if b = [] ∧ rinfo.leftEc = rinfo.rightEc then
      if hasEclass a rinfo.leftEc then (a, b) else (a ++ [⟨rinfo.leftEc, opfamily⟩], b)
    else
      let ecs := rinfo.sides relids
      if hasEclass a ecs.1 || hasEclass b ecs.2 then (a, b)
      else (a ++ [⟨ecs.1, opfamily⟩], b ++ [⟨ecs.2, opfamily⟩])

def addClauses (a b : List DistributionKey) :
    List RestrictInfo → List DistributionKey × List DistributionKey
  | [] => (a, b)
  | rinfo :: rest =>
    let keys := addClause compatible relids a b rinfo
    if keys.1.length ≥ 20 then keys else addClauses keys.1 keys.2 rest

def cdbpathDistkeysFromPreds (mergeclauses : List RestrictInfo) (numsegments : Nat) :
    Option (CdbPathLocus × CdbPathLocus) :=
  let keys := addClauses compatible relids [] [] mergeclauses
  if keys.1 = [] then none
  else some (⟨keys.1, numsegments⟩, ⟨if keys.2 = [] then keys.1 else keys.2, numsegments⟩)

/-- The first clause with a family has two classes. -/
def SplitFirst (clauses : List RestrictInfo) : Prop :=
  ∀ rinfo, clauses.find? (fun rinfo => (rinfo.opfamily compatible).isSome) = some rinfo →
    rinfo.leftEc ≠ rinfo.rightEc

/-- The classes of the clauses that have a family and one class. -/
def sharedClasses (clauses : List RestrictInfo) : Finset Nat :=
  ((clauses.filter fun rinfo => (rinfo.opfamily compatible).isSome ∧
    rinfo.leftEc = rinfo.rightEc).map RestrictInfo.leftEc).toFinset

/-- The clauses behind `done` that have a family and two classes come to nothing: a clause with one
class, which is that of their first path, is before them, or there are keys enough. -/
def Covered (done : List RestrictInfo) : List RestrictInfo → Prop
  | [] => True
  | rinfo :: rest => ((rinfo.opfamily compatible).isSome → rinfo.leftEc ≠ rinfo.rightEc →
        (rinfo.sides relids).1 ∈ sharedClasses compatible done ∨
          20 ≤ (sharedClasses compatible done).card) ∧
      Covered (done ++ [rinfo]) rest

end

/-- The operators of a catalog and its hash functions. -/
structure Hashing (V H : Type) where
  compatible : Nat → Option Nat
  equal : Nat → V → V → Prop
  hash : Nat → V → H
  respects : ∀ op opfamily, compatible op = some opfamily →
    ∀ left right, equal op left right → hash opfamily left = hash opfamily right

variable {V H : Type} (hashing : Hashing V H)

/-- A row gives a value to each class. -/
def RestrictInfo.Holds (rinfo : RestrictInfo) (relids : Finset Nat) (a b : Nat → V) : Prop :=
  ∀ op, rinfo.hashjoinoperator = some op →
    if rinfo.rightRelids ⊆ relids then hashing.equal op (b rinfo.leftEc) (a rinfo.rightEc)
    else hashing.equal op (a rinfo.leftEc) (b rinfo.rightEc)

def CdbPathLocus.segment (locus : CdbPathLocus) (reduce : Nat → List (Nat × H) → Nat)
    (row : Nat → V) : Nat :=
  reduce locus.numsegments
    (locus.distkeys.map fun key => (key.opfamily, hashing.hash key.opfamily (row key.eclass)))

/-- What a join of the redistributed paths needs. -/
structure Colocated (relids : Finset Nat) (clauses : List RestrictInfo)
    (aLocus bLocus : CdbPathLocus) : Prop where
  length : aLocus.distkeys.length = bLocus.distkeys.length
  families : aLocus.distkeys.map DistributionKey.opfamily =
    bLocus.distkeys.map DistributionKey.opfamily
  segments : ∀ reduce a b, (∀ rinfo ∈ clauses, rinfo.Holds hashing relids a b) →
    aLocus.segment hashing reduce a = bLocus.segment hashing reduce b

/-! ### The keys of both paths -/

/-- Two keys that come from one clause. -/
def KeyPair (compatible : Nat → Option Nat) (relids : Finset Nat) (clauses : List RestrictInfo)
    (a b : DistributionKey) : Prop :=
  ∃ rinfo ∈ clauses, ∃ opfamily, rinfo.opfamily compatible = some opfamily ∧
    a = ⟨(rinfo.sides relids).1, opfamily⟩ ∧ b = ⟨(rinfo.sides relids).2, opfamily⟩

variable {compatible : Nat → Option Nat} {relids : Finset Nat}
  {clauses done rest : List RestrictInfo} {rinfo : RestrictInfo}
  {shared a b : List DistributionKey}

/-- The keys of both paths are paired, behind keys that only the first path has. -/
structure Keys (compatible : Nat → Option Nat) (relids : Finset Nat) (clauses : List RestrictInfo)
    (shared a b : List DistributionKey) : Prop where
  own : ∀ key ∈ shared, KeyPair compatible relids clauses key key
  pairs : ∃ more, a = shared ++ more ∧ Forall₂ (KeyPair compatible relids clauses) more b

theorem addClause_snd : b <+: (addClause compatible relids a b rinfo).2 := by
  unfold addClause
  split
  · exact prefix_rfl
  · dsimp only
    split_ifs <;> simp

theorem addClauses_snd : b <+: (addClauses compatible relids a b rest).2 := by
  induction rest generalizing a b with
  | nil => exact prefix_rfl
  | cons rinfo rest ih =>
    rw [addClauses]
    split
    · exact addClause_snd
    · exact addClause_snd.trans ih

/-- What one clause does: the first path alone gets a key, as long as the second one has none, or
both get one. -/
theorem Keys.addClause (mem : rinfo ∈ clauses)
    (keys : Keys compatible relids clauses shared a b) :
    ∃ shared', Keys compatible relids clauses shared' (addClause compatible relids a b rinfo).1
        (addClause compatible relids a b rinfo).2 ∧
      shared <+: shared' ∧ (b ≠ [] → shared' = shared) := by
  have kept : ∃ shared', Keys compatible relids clauses shared' a b ∧ shared <+: shared' ∧
      (b ≠ [] → shared' = shared) := ⟨shared, keys, prefix_rfl, fun _ => rfl⟩
  unfold Motion.addClause
  cases family : rinfo.opfamily compatible with
  | none => exact kept
  | some opfamily =>
    have pair : KeyPair compatible relids clauses ⟨(rinfo.sides relids).1, opfamily⟩
        ⟨(rinfo.sides relids).2, opfamily⟩ := ⟨rinfo, mem, opfamily, family, rfl, rfl⟩
    obtain ⟨own, more, rfl, paired⟩ := keys
    dsimp only
    by_cases one : b = [] ∧ rinfo.leftEc = rinfo.rightEc
    · obtain ⟨rfl, same⟩ := one
      have sides : rinfo.sides relids = (rinfo.leftEc, rinfo.leftEc) := by
        simp [RestrictInfo.sides, same]
      rw [sides] at pair
      rw [forall₂_nil_right_iff.mp paired, append_nil] at kept ⊢
      rw [if_pos ⟨rfl, same⟩]
      split_ifs
      · exact kept
      · refine ⟨_, ⟨?_, [], (append_nil _).symm, .nil⟩, prefix_append _ _, by simp⟩
        exact forall_mem_append.mpr ⟨own, forall_mem_singleton.mpr pair⟩
    · rw [if_neg one]
      split_ifs
      · exact kept
      · exact ⟨shared, ⟨own, _, append_assoc _ _ _, rel_append paired (.cons pair .nil)⟩,
          prefix_rfl, fun _ => rfl⟩

theorem Keys.addClauses (sub : rest ⊆ clauses)
    (keys : Keys compatible relids clauses shared a b) :
    ∃ shared', Keys compatible relids clauses shared' (addClauses compatible relids a b rest).1
        (addClauses compatible relids a b rest).2 ∧
      shared <+: shared' ∧ (b ≠ [] → shared' = shared) := by
  induction rest generalizing a b shared with
  | nil => exact ⟨shared, keys, prefix_rfl, fun _ => rfl⟩
  | cons rinfo rest ih =>
    obtain ⟨mem, sub⟩ := cons_subset.mp sub
    obtain ⟨next, step, grown, same⟩ := keys.addClause mem
    rw [Motion.addClauses]
    split
    · exact ⟨next, step, grown, same⟩
    · obtain ⟨last, final, grown', same'⟩ := ih sub step
      refine ⟨last, final, grown.trans grown', fun ne => ?_⟩
      rw [same' (addClause_snd.ne_nil ne), same ne]

/-! ### When the second path gets keys -/

theorem sharedClasses_concat : sharedClasses compatible (done ++ [rinfo]) =
    if (rinfo.opfamily compatible).isSome ∧ rinfo.leftEc = rinfo.rightEc
    then insert rinfo.leftEc (sharedClasses compatible done)
    else sharedClasses compatible done := by
  ext eclass
  rw [sharedClasses, filter_append, map_append, filter_cons, filter_nil]
  split_ifs <;> simp_all [sharedClasses]

theorem covered_of_card {rest} (many : 20 ≤ (sharedClasses compatible done).card) :
    Covered compatible relids done rest := by
  induction rest generalizing done with
  | nil => trivial
  | cons rinfo rest ih =>
    refine ⟨fun _ _ => .inr many, ih (many.trans (Finset.card_le_card ?_))⟩
    rw [sharedClasses_concat]
    split_ifs
    · exact Finset.subset_insert _ _
    · exact subset_rfl

/-- The first path has one key for each shared class. -/
structure OwnKeys (compatible : Nat → Option Nat) (done : List RestrictInfo)
    (a : List DistributionKey) : Prop where
  nodup : (a.map DistributionKey.eclass).Nodup
  classes : (a.map DistributionKey.eclass).toFinset = sharedClasses compatible done

theorem OwnKeys.hasEclass_iff (keys : OwnKeys compatible done a) {eclass} :
    hasEclass a eclass ↔ eclass ∈ sharedClasses compatible done := by
  simp [← keys.classes, hasEclass]

theorem OwnKeys.card_eq (keys : OwnKeys compatible done a) :
    (sharedClasses compatible done).card = a.length := by
  rw [← keys.classes, toFinset_card_of_nodup keys.nodup, length_map]

theorem OwnKeys.concat (keys : OwnKeys compatible done a) (opfamily : Nat)
    (new : ¬ hasEclass a rinfo.leftEc)
    (later : sharedClasses compatible (done ++ [rinfo]) =
      insert rinfo.leftEc (sharedClasses compatible done)) :
    OwnKeys compatible (done ++ [rinfo]) (a ++ [⟨rinfo.leftEc, opfamily⟩]) where
  nodup := by
    rw [map_append]
    refine keys.nodup.append (nodup_singleton _) (disjoint_singleton.mpr ?_)
    rwa [← mem_toFinset, keys.classes, ← keys.hasEclass_iff]
  classes := by
    rw [later, ← keys.classes]
    ext eclass
    simp

/-- As long as the second path has no keys, the first one has its own. -/
theorem addClauses_snd_eq_nil_iff (keys : OwnKeys compatible done a) (few : a.length < 20) :
    (addClauses compatible relids a [] rest).2 = [] ↔ Covered compatible relids done rest := by
  induction rest generalizing a done with
  | nil => simp [addClauses, Covered]
  | cons rinfo rest ih =>
    have later : sharedClasses compatible (done ++ [rinfo]) = _ := sharedClasses_concat
    rw [addClauses, Covered]
    cases family : rinfo.opfamily compatible with
    | none =>
      have step : addClause compatible relids a [] rinfo = (a, []) := by simp [addClause, family]
      rw [if_neg (by simp [family])] at later
      simpa [step, few.not_ge] using ih ⟨keys.nodup, keys.classes.trans later.symm⟩ few
    | some opfamily =>
      by_cases one : rinfo.leftEc = rinfo.rightEc
      · rw [if_pos ⟨by simp [family], one⟩] at later
        by_cases known : hasEclass a rinfo.leftEc
        · have step : addClause compatible relids a [] rinfo = (a, []) := by
            simp [addClause, family, one, one ▸ known]
          rw [Finset.insert_eq_self.mpr (keys.hasEclass_iff.mp known)] at later
          simpa [step, one, few.not_ge] using ih ⟨keys.nodup, keys.classes.trans later.symm⟩ few
        · have step : addClause compatible relids a [] rinfo =
              (a ++ [⟨rinfo.leftEc, opfamily⟩], []) := by
            simp [addClause, family, one, one ▸ known]
          have next := keys.concat opfamily known later
          rw [step]
          dsimp only
          split_ifs with many
          · simpa [one] using covered_of_card (next.card_eq.symm ▸ many)
          · simpa [one] using ih next (not_le.mp many)
      · rw [if_neg fun both => one both.2] at later
        by_cases known : hasEclass a (rinfo.sides relids).1
        · have step : addClause compatible relids a [] rinfo = (a, []) := by
            simp [addClause, family, one, known]
          have mem := keys.hasEclass_iff.mp known
          simpa [step, few.not_ge, mem] using
            ih ⟨keys.nodup, keys.classes.trans later.symm⟩ few
        · have step : addClause compatible relids a [] rinfo =
              (a ++ [⟨(rinfo.sides relids).1, opfamily⟩],
                [⟨(rinfo.sides relids).2, opfamily⟩]) := by
            simp [addClause, family, one, known, show hasEclass [] _ = false from rfl]
          have mem := mt keys.hasEclass_iff.mpr known
          have short := keys.card_eq.trans_lt few
          rw [step]
          dsimp only
          split_ifs
          · simp [one, mem, short.not_ge]
          · simp [one, mem, short.not_ge, addClauses_snd.ne_nil]

/-- The first path has a key alone if the first clause with a family has one class. -/
theorem exists_keys (compatible : Nat → Option Nat) (relids : Finset Nat) (sub : rest ⊆ clauses) :
    ∃ shared, Keys compatible relids clauses shared (addClauses compatible relids [] [] rest).1
        (addClauses compatible relids [] [] rest).2 ∧
      (shared = [] ↔ SplitFirst compatible rest) := by
  induction rest with
  | nil => exact ⟨[], ⟨by simp, [], rfl, .nil⟩, by simp [SplitFirst]⟩
  | cons rinfo rest ih =>
    obtain ⟨mem, sub'⟩ := cons_subset.mp sub
    cases family : rinfo.opfamily compatible with
    | none => simpa [addClauses, addClause, family, SplitFirst] using ih sub'
    | some opfamily =>
      have pair : KeyPair compatible relids clauses ⟨(rinfo.sides relids).1, opfamily⟩
          ⟨(rinfo.sides relids).2, opfamily⟩ := ⟨rinfo, mem, opfamily, family, rfl, rfl⟩
      have first : SplitFirst compatible (rinfo :: rest) ↔ rinfo.leftEc ≠ rinfo.rightEc := by
        simp [SplitFirst, family]
      by_cases one : rinfo.leftEc = rinfo.rightEc
      · have step : addClause compatible relids [] [] rinfo =
            ([⟨rinfo.leftEc, opfamily⟩], []) := by
          simp [addClause, family, one, hasEclass]
        have keys : Keys compatible relids clauses [⟨rinfo.leftEc, opfamily⟩]
            [⟨rinfo.leftEc, opfamily⟩] [] := by
          refine ⟨forall_mem_singleton.mpr ?_, [], rfl, .nil⟩
          simpa [RestrictInfo.sides, one] using pair
        obtain ⟨shared, run, grown, -⟩ := keys.addClauses sub'
        refine ⟨shared, by simpa [addClauses, step] using run, ?_⟩
        simp [first, one, grown.ne_nil]
      · have step : addClause compatible relids [] [] rinfo =
            ([⟨(rinfo.sides relids).1, opfamily⟩], [⟨(rinfo.sides relids).2, opfamily⟩]) := by
          simp [addClause, family, one, hasEclass]
        have keys : Keys compatible relids clauses [] [⟨(rinfo.sides relids).1, opfamily⟩]
            [⟨(rinfo.sides relids).2, opfamily⟩] := ⟨by simp, _, rfl, .cons pair .nil⟩
        obtain ⟨shared, run, -, same⟩ := keys.addClauses sub'
        refine ⟨shared, by simpa [addClauses, step] using run, ?_⟩
        simp [first, one, same]

theorem colocated_of_paired {hashing : Hashing V H} {numsegments : Nat}
    (paired : Forall₂ (KeyPair hashing.compatible relids clauses) a b) :
    Colocated hashing relids clauses ⟨a, numsegments⟩ ⟨b, numsegments⟩ where
  length := paired.length_eq
  families := by
    refine map_eq_of_forall₂ paired ?_
    rintro _ _ ⟨rinfo, -, opfamily, -, rfl, rfl⟩
    rfl
  segments reduce a b holds := by
    rw [CdbPathLocus.segment, CdbPathLocus.segment]
    congr 1
    refine map_eq_of_forall₂ paired ?_
    rintro _ _ ⟨rinfo, mem, opfamily, family, rfl, rfl⟩
    obtain ⟨op, isOp, isFamily⟩ := Option.bind_eq_some_iff.mp family
    have equal := holds rinfo mem op isOp
    have respects := hashing.respects op opfamily isFamily
    unfold RestrictInfo.sides
    split_ifs at equal ⊢
    · rw [respects _ _ equal]
    · rw [respects _ _ equal]

/-- Rows that satisfy all clauses go to one segment, unless a clause with two classes adds a key
after one with a single class. -/
theorem distkeysFromPreds_colocated_iff (hashing : Hashing V H) (relids : Finset Nat)
    (clauses : List RestrictInfo) (numsegments : Nat) (aLocus bLocus : CdbPathLocus)
    (found : cdbpathDistkeysFromPreds hashing.compatible relids clauses numsegments =
      some (aLocus, bLocus)) :
    Colocated hashing relids clauses aLocus bLocus ↔
      SplitFirst hashing.compatible clauses ∨ Covered hashing.compatible relids [] clauses := by
  simp only [cdbpathDistkeysFromPreds, Option.ite_none_left_eq_some] at found
  obtain ⟨-, rfl, rfl⟩ := found
  obtain ⟨shared, ⟨own, more, keys, paired⟩, unshared⟩ :=
    exists_keys hashing.compatible relids (Subset.refl clauses)
  have start : OwnKeys hashing.compatible [] [] := ⟨nodup_nil, rfl⟩
  rw [← unshared, ← addClauses_snd_eq_nil_iff start (by decide)]
  constructor
  · intro colocated
    by_cases none : (addClauses hashing.compatible relids [] [] clauses).2 = []
    · exact .inr none
    · have length := colocated.length
      simp only [if_neg none, keys, length_append, paired.length_eq] at length
      exact .inl (length_eq_zero_iff.mp (by omega))
  · intro unmixed
    apply colocated_of_paired
    split_ifs with none
    · rw [none, forall₂_nil_right_iff] at paired
      rw [keys, paired, append_nil]
      exact forall₂_same.mpr own
    · rw [keys, unmixed.resolve_right none]
      exact paired

/-- One family, in which numbers hash to themselves. -/
def natHashing : Hashing Nat Nat :=
  ⟨fun _ => some 1, fun _ left right => left = right, fun _ value => value, by
    rintro op _ - left _ rfl
    rfl⟩

/-- The second clause adds nothing, and the last one has the first path on its right. -/
theorem distkeysFromPreds_colocated_splitFirst :
    let reduce := fun n (keys : List (Nat × Nat)) => (keys.map Prod.snd).sum % n
    let aLocus : CdbPathLocus := ⟨[⟨5, 1⟩, ⟨7, 1⟩, ⟨10, 1⟩], 3⟩
    let bLocus : CdbPathLocus := ⟨[⟨6, 1⟩, ⟨7, 1⟩, ⟨11, 1⟩], 3⟩
    let aRow := fun eclass => if eclass = 4 then 5 else eclass
    let bRow := fun eclass => if eclass = 7 then 7 else eclass - 1
    aLocus.segment natHashing reduce aRow = 1 ∧
      aLocus.segment natHashing reduce aRow = bLocus.segment natHashing reduce bRow :=
  ⟨rfl, ((distkeysFromPreds_colocated_iff natHashing {8}
      [⟨some 1, 5, 6, {9}⟩, ⟨some 1, 4, 6, {9}⟩, ⟨some 1, 7, 7, {9}⟩, ⟨some 1, 11, 10, {8}⟩] 3 _ _
      (by decide)).mpr (.inl (by simp [SplitFirst, RestrictInfo.opfamily, natHashing]))).segments
    _ _ _ (by simp [RestrictInfo.Holds, natHashing])⟩

/-- A key of one class comes first, and only the first path keeps it. -/
theorem distkeysFromPreds_unpaired :
    let clauses : List RestrictInfo := [⟨some 1, 4, 4, {9}⟩, ⟨some 1, 5, 6, {9}⟩]
    let row := fun _ : Nat => 1
    let reduce := fun n (keys : List (Nat × Nat)) => (keys.map Prod.snd).sum % n
    ∃ a b, cdbpathDistkeysFromPreds natHashing.compatible {8} clauses 3 = some (a, b) ∧
      a.distkeys.length = 2 ∧ b.distkeys.length = 1 ∧
      (∀ rinfo ∈ clauses, rinfo.Holds natHashing {8} row row) ∧
      a.segment natHashing reduce row = 2 ∧ b.segment natHashing reduce row = 1 :=
  ⟨⟨[⟨4, 1⟩, ⟨5, 1⟩], 3⟩, ⟨[⟨6, 1⟩], 3⟩, by decide, rfl, rfl,
    by simp [RestrictInfo.Holds, natHashing], rfl, rfl⟩

end Greengage.Motion
