import Greengage.Rebalance.Ports

/-!
Contract: carrying out a plan in three parts.

A plan has three parts: mirrors, primaries, mirrors, and a content occurs at most once in each.
So whatever the order inside a batch, a content goes through at most four pairs of hosts, and
it is enough that the two hosts of each pair differ. Ports need no order at all, since no target
is used twice.

Does not own: which plans have three such parts.
-/

namespace Greengage.Rebalance

open List

variable {segments segs : Nat} {role : Role} {part : List (LogicalMove segs)}

/-! ### Parts of a plan -/

/-- A part of a plan: moves of one role, at most one of a content. -/
structure PlanPart (role : Role) (part : List (LogicalMove segments)) : Prop where
  kind : ∀ move ∈ part, move.role = role
  current : ∀ move ∈ part, move.seg.role = role
  once : (part.map fun move => move.seg.content).Nodup

def within (part : List (LogicalMove segments)) (content : Fin segments) :
    Option (LogicalMove segments) :=
  part.find? fun move => move.seg.content = content

def hostAfter (part : List (LogicalMove segments)) (content : Fin segments) (host : String) :
    String :=
  ((within part content).map fun move => move.dstHost.hostname).getD host

variable {content cid : Fin segs} {move : LogicalMove segs}
  {other done permuted : List (LogicalMove segs)}

theorem within_eq_some (ok : PlanPart role part) :
    within part cid = some move ↔ move ∈ part ∧ move.seg.content = cid := by
  constructor
  · intro found
    have holds := find?_some found
    exact ⟨mem_of_find?_eq_some found, of_decide_eq_true holds⟩
  · rintro ⟨mem, rfl⟩
    obtain ⟨found, is⟩ := Option.isSome_iff_exists.mp
      (find?_isSome.mpr ⟨move, mem, decide_eq_true rfl⟩ : (within part move.seg.content).isSome)
    have holds := find?_some is
    have same := inj_on_of_nodup_map ok.once (mem_of_find?_eq_some is) mem (of_decide_eq_true holds)
    rw [← same] at is ⊢
    exact is

theorem hostAfter_of_mem (ok : PlanPart role part) (mem : move ∈ part) (host) :
    hostAfter part move.seg.content host = move.dstHost.hostname := by
  rw [hostAfter, (within_eq_some ok).mpr ⟨mem, rfl⟩]
  rfl

theorem hostAfter_of_not_mem (absent : ∀ move ∈ part, move.seg.content ≠ cid) (host) :
    hostAfter part cid host = host := by
  have none : within part cid = none :=
    find?_eq_none.mpr fun move mem => by simpa using absent move mem
  rw [hostAfter, none]
  rfl

section

variable (ok : PlanPart role part)
include ok

theorem PlanPart.perm (permuted : part.Perm other) : PlanPart role other where
  kind move mem := ok.kind move (permuted.mem_iff.mpr mem)
  current move mem := ok.current move (permuted.mem_iff.mpr mem)
  once := (permuted.map _).nodup_iff.mp ok.once

theorem PlanPart.restrict (pre : done <+: part) : PlanPart role done where
  kind move mem := ok.kind move (pre.subset mem)
  current move mem := ok.current move (pre.subset mem)
  once := ok.once.sublist (pre.sublist.map _)

omit ok in
theorem PlanPart.tail (ok : PlanPart role (move :: part)) : PlanPart role part where
  kind later mem := ok.kind later (mem_cons_of_mem _ mem)
  current later mem := ok.current later (mem_cons_of_mem _ mem)
  once := (nodup_cons.mp ok.once).2

theorem hostAfter_perm (permuted : part.Perm other) (cid host) :
    hostAfter other cid host = hostAfter part cid host := by
  unfold hostAfter
  congr 2
  refine Option.ext fun move => ?_
  rw [within_eq_some ok, within_eq_some (ok.perm permuted), permuted.mem_iff]

theorem hostAfter_prefix (pre : done <+: part) (cid host) : hostAfter done cid host = host ∨
      hostAfter done cid host = hostAfter part cid host := by
  cases found : within done cid with
  | none =>
    left
    rw [hostAfter, found]
    rfl
  | some move =>
    right
    obtain ⟨mem, rfl⟩ := (within_eq_some (ok.restrict pre)).mp found
    rw [hostAfter_of_mem (ok.restrict pre) mem, hostAfter_of_mem ok (pre.subset mem)]

end

/-! ### Carrying out a part -/

theorem carryOut_apply (locations move) (cid : Fin segs) (other) :
    carryOut locations move cid other =
      if cid = move.seg.content ∧ other = move.role then move.target
      else locations cid other := by
  unfold carryOut
  by_cases sameContent : cid = move.seg.content
  · subst sameContent
    by_cases sameRole : other = move.role
    · subst sameRole
      simp
    · simp [sameRole]
  · simp [sameContent]

section

variable (ok : PlanPart role part)
include ok

theorem foldl_carryOut_fst (locations : Locations segs) (cid : Fin segs) (other : Role) :
    (part.foldl carryOut locations cid other).1 =
      if other = role then hostAfter part cid (locations cid other).1
      else (locations cid other).1 := by
  induction part generalizing locations with
  | nil => simp [hostAfter, within]
  | cons move rest ih =>
    rw [foldl_cons, ih ok.tail, carryOut_apply, ok.kind move mem_cons_self]
    by_cases same : cid = move.seg.content
    · subst same
      -- no later move of the part concerns this content
      have absent : ∀ later ∈ rest, later.seg.content ≠ move.seg.content := by
        intro later mem equal
        apply (nodup_cons.mp ok.once).1
        exact mem_map.mpr ⟨later, mem, equal⟩
      rw [hostAfter_of_mem ok mem_cons_self, hostAfter_of_not_mem absent]
      by_cases sameRole : other = role
      · simp [sameRole, LogicalMove.target]
      · simp [sameRole]
    · have skipped : within (move :: rest) cid = within rest cid := by
        unfold within
        rw [find?_cons_of_neg]
        simpa using fun equal => same equal.symm
      simp [same, hostAfter, skipped]

theorem foldl_prefix {done} (perm : part.Perm permuted) (pre : done <+: permuted) (locations cid) :
    ((done.foldl carryOut locations cid role).1 = (locations cid role).1 ∨
      (done.foldl carryOut locations cid role).1 = hostAfter part cid (locations cid role).1) ∧
    ∀ other, other ≠ role → (done.foldl carryOut locations cid other).1 =
      (locations cid other).1 := by
  have doneOk := (ok.perm perm).restrict pre
  refine ⟨?_, fun other ne => ?_⟩
  · rw [foldl_carryOut_fst doneOk, if_pos rfl, ← hostAfter_perm ok perm]
    exact hostAfter_prefix (ok.perm perm) pre cid _
  · rw [foldl_carryOut_fst doneOk, if_neg ne]

theorem foldl_whole (perm : part.Perm permuted) (locations cid) :
    (permuted.foldl carryOut locations cid role).1 = hostAfter part cid (locations cid role).1 ∧
    ∀ other, other ≠ role → (permuted.foldl carryOut locations cid other).1 =
      (locations cid other).1 := by
  refine ⟨?_, fun other ne => ?_⟩
  · rw [foldl_carryOut_fst (ok.perm perm), if_pos rfl, hostAfter_perm ok perm]
  · rw [foldl_carryOut_fst (ok.perm perm), if_neg ne]

theorem admissible_append {rest order} (next : ∀ move ∈ rest.head?, move.seg.role ≠ role)
    (adm : Admissible (part ++ rest) order) :
    ∃ first later, order = first ++ later ∧ part.Perm first ∧ Admissible rest later := by
  obtain ⟨permuted, perms, rfl⟩ := adm
  have split : batches (part ++ rest) = batches part ++ batches rest := by
    refine splitBy_append fun last lastIs first firstIs => ?_
    have ne := next first firstIs
    rw [ok.current last (mem_of_mem_getLast? lastIs)]
    exact decide_eq_false fun same => ne same.symm
  by_cases empty : part = []
  · subst empty
    exact ⟨[], permuted.flatten, rfl, .refl _, permuted, perms, rfl⟩
  · have whole : batches part = [part] := by
      refine splitBy_of_isChain empty ?_
      refine Pairwise.isChain (pairwise_iff_forall_sublist.mpr ?_)
      intro move other both
      have roles := ok.current
      rw [roles move (both.subset (by simp)), roles other (both.subset (by simp))]
      exact decide_eq_true rfl
    rw [split, whole, singleton_append] at perms
    obtain ⟨first, later, perm, others, rfl⟩ := forall₂_cons_left_iff.mp perms
    exact ⟨first, later.flatten, flatten_cons, perm, later, others, rfl⟩

end

/-- Each move goes to another host than the one its segment is on when its turn comes. -/
def realMoves : Locations segments → List (LogicalMove segments) → Bool
  | _, [] => true
  | locations, move :: rest =>
    (locations move.seg.content move.role).1 ≠ move.dstHost.hostname &&
      realMoves (carryOut locations move) rest

theorem realMoves_append {locations later} : realMoves locations (part ++ later) ↔
      realMoves locations part ∧ realMoves (part.foldl carryOut locations) later := by
  induction part generalizing locations with
  | nil => simp [realMoves]
  | cons move rest ih => simp [realMoves, ih, and_assoc]

/-- The segment that it moves. -/
def LogicalMove.moved (move : LogicalMove segments) : Fin segments × Role :=
  (move.seg.content, move.role)

section

variable (once : (part.map LogicalMove.moved).Nodup)
include once

theorem realMoves_of_nodup {locations}
    (away : ∀ move ∈ part, (locations move.seg.content move.role).1 ≠ move.dstHost.hostname) :
    realMoves locations part := by
  induction part generalizing locations with
  | nil => rfl
  | cons move rest ih =>
    obtain ⟨new, once⟩ := nodup_cons.mp once
    rw [realMoves, Bool.and_eq_true, decide_eq_true_eq]
    refine ⟨away move mem_cons_self, ih once fun later mem => ?_⟩
    rw [carryOut_apply, if_neg]
    · exact away later (mem_cons_of_mem _ mem)
    · rintro ⟨content, role⟩
      exact new (mem_map.mpr ⟨later, mem, Prod.ext content role⟩)

theorem foldl_carryOut_of_mem (mem : move ∈ part) (locations) :
    part.foldl carryOut locations move.seg.content move.role = move.target := by
  induction part using reverseRecOn with
  | nil => cases mem
  | append_singleton done last ih =>
    rw [map_append, nodup_append] at once
    rw [foldl_append, foldl_cons, foldl_nil, carryOut_apply]
    rcases mem_append.mp mem with old | new
    · rw [if_neg, ih once.1 old]
      rintro ⟨content, role⟩
      exact once.2.2 _ (mem_map_of_mem old) _ (mem_singleton_self _) (Prod.ext content role)
    · rw [mem_singleton.mp new, if_pos ⟨rfl, rfl⟩]

end

/-! ### Plans in three parts -/

/-- A plan in three parts whose hosts differ at each point. -/
structure Phased (planner : Planner segments) (assigned : Fin segments → Role → String)
    (moves first second third : List (LogicalMove segments)) : Prop where
  parts : moves = first ++ (second ++ third)
  firstPart : PlanPart .mirror first
  secondPart : PlanPart .primary second
  thirdPart : PlanPart .mirror third
  /-- The last part is a batch of its own. -/
  separated : third ≠ [] → second ≠ []
  start : ∀ content, (planner.db content .primary).hostname ≠ (planner.db content .mirror).hostname
  afterFirst : ∀ content, (planner.db content .primary).hostname ≠
    hostAfter first content (planner.db content .mirror).hostname
  afterSecond : ∀ content, assigned content .primary ≠
    hostAfter first content (planner.db content .mirror).hostname
  afterThird : ∀ content, assigned content .primary ≠ assigned content .mirror
  primaries : ∀ content, hostAfter second content (planner.db content .primary).hostname =
    assigned content .primary
  mirrors : ∀ content, hostAfter third content
    (hostAfter first content (planner.db content .mirror).hostname) = assigned content .mirror

theorem prefix_append_cases {α : Type} {done first snd : List α} (pre : done <+: first ++ snd) :
    done <+: first ∨ ∃ later, done = first ++ later ∧ later <+: snd := by
  obtain ⟨_, is⟩ := pre
  rcases append_eq_append_iff.mp is with ⟨mid, rfl, _⟩ | ⟨mid, rfl, rfl⟩
  · exact .inl (prefix_append _ _)
  · exact .inr ⟨mid, rfl, prefix_append _ _⟩

section

variable {plan : Planner segs} {assigned : Fin segs → Role → String}
  {moves first snd third order : List (LogicalMove segs)}

section

variable (phased : Phased plan assigned moves first snd third)
  (adm : Admissible moves order)
include phased adm

theorem Phased.split :
    ∃ one two three, order = one ++ (two ++ three) ∧ first.Perm one ∧ snd.Perm two ∧
      third.Perm three := by
  rw [phased.parts] at adm
  obtain ⟨one, later, rfl, firstPerm, adm⟩ := admissible_append phased.firstPart (by
    intro move head
    cases isSecond : snd with
    | nil =>
      have empty : third = [] := by
        by_contra some
        exact phased.separated some isSecond
      rw [isSecond, empty] at head
      cases head
    | cons next others =>
      rw [isSecond] at head
      obtain rfl := Option.some.inj head
      rw [phased.secondPart.current next (isSecond ▸ mem_cons_self)]
      decide) adm
  obtain ⟨two, later, rfl, secondPerm, adm⟩ := admissible_append phased.secondPart (by
    intro move head
    rw [phased.thirdPart.current move (mem_of_mem_head? head)]
    decide) adm
  rw [← append_nil third] at adm
  obtain ⟨three, later, rfl, thirdPerm, rest, none, rfl⟩ := admissible_append phased.thirdPart (by
    intro move head
    cases head) adm
  obtain rfl := forall₂_nil_left_iff.mp none
  exact ⟨one, two, three, by simp, firstPerm, secondPerm, thirdPerm⟩

theorem Phased.apart {done : List (LogicalMove segs)} (pre : done <+: order) (cid) :
    (done.foldl carryOut plan.locations cid .primary).1 ≠
      (done.foldl carryOut plan.locations cid .mirror).1 := by
  obtain ⟨one, two, _, rfl, firstPerm, secondPerm, thirdPerm⟩ := phased.split adm
  rcases prefix_append_cases pre with inFirst | ⟨_, rfl, behind⟩
  · obtain ⟨mir, prim⟩ :=
      foldl_prefix phased.firstPart firstPerm inFirst plan.locations cid
    rw [prim .primary (by decide)]
    rcases mir with stays | gone
    · rw [stays]
      exact phased.start cid
    · rw [gone]
      exact phased.afterFirst cid
  · rw [foldl_append]
    obtain ⟨mir, prim⟩ := foldl_whole phased.firstPart firstPerm plan.locations cid
    have prim := prim .primary (by decide)
    rcases prefix_append_cases behind with inSecond | ⟨_, rfl, inThird⟩
    · obtain ⟨primaryLater, mirrorLater⟩ := foldl_prefix phased.secondPart secondPerm inSecond
        (one.foldl carryOut plan.locations) cid
      rw [mirrorLater .mirror (by decide), mir]
      rw [prim] at primaryLater
      rcases primaryLater with stays | gone
      · rw [stays]
        exact phased.afterFirst cid
      · rw [gone]
        exact (phased.primaries cid).symm ▸ phased.afterSecond cid
    · rw [foldl_append]
      obtain ⟨primaryThen, mirrorThen⟩ := foldl_whole phased.secondPart secondPerm
        (one.foldl carryOut plan.locations) cid
      obtain ⟨mirrorLast, primaryLast⟩ := foldl_prefix phased.thirdPart thirdPerm inThird
        (two.foldl carryOut (one.foldl carryOut plan.locations)) cid
      have arrived : hostAfter snd cid (plan.locations cid .primary).1 =
        assigned cid .primary := phased.primaries cid
      rw [primaryLast .primary (by decide), primaryThen, prim, arrived]
      rw [mirrorThen .mirror (by decide), mir] at mirrorLast
      rcases mirrorLast with stays | gone
      · rw [stays]
        exact phased.afterSecond cid
      · rw [gone]
        exact (phased.mirrors cid).symm ▸ phased.afterThird cid

theorem Phased.arrives (cid role) :
    (order.foldl carryOut plan.locations cid role).1 = assigned cid role := by
  obtain ⟨one, two, _, rfl, firstPerm, secondPerm, thirdPerm⟩ := phased.split adm
  rw [foldl_append, foldl_append]
  obtain ⟨mir, prim⟩ := foldl_whole phased.firstPart firstPerm plan.locations cid
  obtain ⟨primaryThen, mirrorThen⟩ := foldl_whole phased.secondPart secondPerm
    (one.foldl carryOut plan.locations) cid
  obtain ⟨mirrorLast, primaryLast⟩ := foldl_whole phased.thirdPart thirdPerm
    (two.foldl carryOut (one.foldl carryOut plan.locations)) cid
  cases role with
  | primary =>
    rw [primaryLast .primary (by decide), primaryThen, prim .primary (by decide)]
    exact phased.primaries cid
  | mirror =>
    rw [mirrorLast, mirrorThen .mirror (by decide), mir]
    exact phased.mirrors cid

end

end

section

variable {plan : Planner segs} {allocator : PortAllocator}
  {moves allocated : List (LogicalMove segs)}

theorem foldl_carryOut_mem (plan : Planner segs) {done} (known : done ⊆ moves)
    (cid : Fin segs) (role : Role) :
    done.foldl carryOut plan.locations cid role = plan.locations cid role ∨
      ∃ move ∈ moves, move.seg.content = cid ∧ move.role = role ∧
        done.foldl carryOut plan.locations cid role = move.target := by
  induction done using reverseRecOn with
  | nil => exact .inl rfl
  | append_singleton old move ih =>
    rw [foldl_append, foldl_cons, foldl_nil, carryOut_apply]
    split_ifs with same
    · exact .inr ⟨move, known (by simp), same.1.symm, same.2.symm, rfl⟩
    · exact ih fun other mem => known (by simp [mem])

theorem foldl_carryOut_injective (ok : PortsOk plan allocator allocated)
    (given : moves ⊆ allocated) {done} (known : done ⊆ moves) {cid' role role'}
    (same : done.foldl carryOut plan.locations cid role =
      done.foldl carryOut plan.locations cid' role') :
    cid = cid' ∧ role = role' ∨ plan.locations cid role = plan.locations cid' role' := by
  rcases foldl_carryOut_mem plan known cid role with
    stays | ⟨move, mem, rfl, rfl, at_⟩ <;>
  rcases foldl_carryOut_mem plan known cid' role' with
    stays' | ⟨other, mem', rfl, rfl, at'⟩
  · exact .inr (by rw [← stays, ← stays', same])
  · exact absurd (by rw [← at', ← same, stays]) (ok.fresh other (given mem') cid role)
  · exact absurd (by rw [← at_, same, stays']) (ok.fresh move (given mem) cid' role')
  · have equal := inj_on_of_nodup_map ok.once (given mem) (given mem') (by rw [← at_, ← at', same])
    rw [equal]
    exact .inl ⟨rfl, rfl⟩

end

end Greengage.Rebalance
