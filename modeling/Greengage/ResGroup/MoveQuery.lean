import Greengage.Foundations.Transition
import Mathlib.Data.List.Count

/-!
Contract: moving a running query to another resource group.

Owns: the model of the initiator in `resGroupGiveSlotAway` with the three functions of the proc
array, and of the target in `HandleMoveResourceGroup`, over every interleaving, and that each slot
is released exactly once, exactly if the initiator never decides without seeing the target that
has taken the slot.

Does not own: the executors of the query. No entrydb process shares the slots of the target, and
one initiator is at work. The fields of the target's `PGPROC` that pass the slot are changed
under a spin lock, so each access is one step. An initiator that is cancelled does what it does
at the time limit.
-/

namespace Greengage.ResGroup

open Option List Foundations

/-! ### The handshake -/

/-- A slot of the target's own, one for each of its transactions, or the slot in the destination
group that the initiator has acquired. -/
inductive Slot where
  | own (transaction : Nat)
  | destination
  deriving DecidableEq

/-- A release of a slot: by the initiator, by the target when it moves, or when its transaction
ends. -/
inductive Release where
  | byInitiator
  | byMove (slot : Slot)
  | atEnd (slot : Slot)
  deriving DecidableEq

def Release.slot : Release → Slot
  | byInitiator => .destination
  | byMove slot => slot
  | atEnd slot => slot

/-- The initiator: before `ResGroupMoveSignalTarget`, inside of it with the fields set and the
lock of the proc array held, waiting, and at the end. -/
inductive Initiator where
  | ready
  | signalling
  | waiting
  | finished
  deriving DecidableEq

/-- The target: at work, past the cleanup of its signals, and out of the proc array. -/
inductive Presence where
  | live
  | exiting
  | gone
  deriving DecidableEq

/-- The fields of the target's `PGPROC`, set or not, and both processes. -/
structure Move where
  movetoResSlot : Bool
  movetoGroupId : Bool
  movetoCallerPid : Bool
  initiator : Initiator
  presence : Presence
  /-- The slot of the target. -/
  slot : Option Slot
  /-- The target has got control over the destination slot and is still attached to its own. -/
  switching : Bool
  /-- The number of transactions of the target. -/
  transactions : Nat
  /-- The target took the destination slot, and the releases. No step reads these. -/
  taken : Bool
  log : List Release
  deriving DecidableEq

def Move.start : Move := ⟨false, false, false, .ready, .live, none, false, 0, false, []⟩

/-- The end of `resGroupGiveSlotAway`: without success, `ResGroupMoveQuery` releases the slot. -/
def Move.finish (move : Move) (result : Bool) : Move :=
  { move with
    initiator := .finished
    log := if result then move.log else move.log ++ [.byInitiator] }

/-- `ResGroupMoveSignalTarget`, up to the signal. -/
def Move.signalTarget (move : Move) : Move :=
  if move.presence = .gone ∨ move.movetoCallerPid then move.finish false
  else { move with
    movetoResSlot := true, movetoGroupId := true, movetoCallerPid := true
    initiator := .signalling }

/-- `SendProcSignal`, which fails if the target is past the cleanup of its signals. -/
def Move.sendProcSignal (move : Move) : Move :=
  if move.presence = .live then { move with initiator := .waiting }
  else
    { move with
      movetoResSlot := false, movetoGroupId := false, movetoCallerPid := false }.finish false

/-- `ResGroupMoveCheckTargetReady`: the fields afterwards, `clean` and `result`. -/
def Move.checkTargetReady (move : Move) (clean : Bool) : Move × Bool × Bool :=
  if move.presence ≠ .gone ∧ move.movetoCallerPid then
    let handled := !move.movetoGroupId
    let result := handled && !move.movetoResSlot
    if clean || handled then
      ({ move with
        movetoResSlot := false, movetoGroupId := false, movetoCallerPid := false }, true, result)
    else (move, clean, false)
  else (move, clean, false)

/-- One turn of the loop of `resGroupGiveSlotAway`, with `clean` at the time limit and after a
cancel. -/
def Move.poll (move : Move) (clean : Bool) : Move :=
  let checked := move.checkTargetReady clean
  if checked.2.1 then checked.1.finish checked.2.2 else checked.1

/-- `HandleMoveResourceGroup`, up to the control over the slot. -/
def Move.handleMove (move : Move) : Move :=
  match move.slot with
  | none => { move with movetoGroupId := false }
  | some _ =>
    { move with
      movetoResSlot := false, movetoGroupId := false
      switching := move.movetoResSlot
      taken := move.taken || move.movetoResSlot }

/-- The rest of it: `UnassignResGroup`, and the new slot is attached. -/
def Move.attach (move : Move) : Move :=
  { move with
    slot := some .destination
    switching := false
    log := move.log ++ move.slot.toList.map .byMove }

/-- `UnassignResGroup` at the end of the transaction. -/
def Move.endTransaction (move : Move) (slot : Slot) : Move :=
  { move with slot := none, log := move.log ++ [.atEnd slot] }

inductive MoveEvent where
  | signal
  | send
  | poll
  | timeout
  | cancel
  | beginTransaction
  | endTransaction
  | handleMove
  | attach
  | exit
  | leave
  deriving DecidableEq

/-- One step of one of the processes. The target handles the move at any point of its work. -/
def step (move : Move) : MoveEvent → Option Move
  | .signal => if move.initiator = .ready then some move.signalTarget else none
  | .send => if move.initiator = .signalling then some move.sendProcSignal else none
  | .poll => if move.initiator = .waiting then some (move.poll false) else none
  | .timeout => if move.initiator = .waiting then some (move.poll true) else none
  | .cancel => if move.initiator = .waiting then some (move.poll true) else none
  | .beginTransaction =>
    if move.presence = .live ∧ move.slot = none then
      some { move with
        slot := some (.own move.transactions), transactions := move.transactions + 1 }
    else none
  | .endTransaction =>
    match move.slot with
    | some slot => if move.switching then none else some (move.endTransaction slot)
    | none => none
  | .handleMove =>
    if move.presence = .live ∧ move.switching = false then some move.handleMove else none
  | .attach => if move.switching then some move.attach else none
  | .exit =>
    if move.presence = .live ∧ move.slot = none then some { move with presence := .exiting }
    else none
  | .leave =>
    if move.presence = .exiting ∧ move.initiator ≠ .signalling then
      some { move with presence := .gone }
    else none

structure Move.Done (move : Move) : Prop where
  initiator : move.initiator = .finished
  target : move.slot = none

def Move.released (move : Move) (slot : Slot) : Nat := (move.log.map Release.slot).count slot

/-- Every slot is released once, the destination slot by the target if it took it and by the
initiator if not, and the target gave up its own slot for it exactly if it took it. -/
structure Move.ReleasedOnce (move : Move) : Prop where
  destination : move.released .destination = 1
  own : ∀ transaction < move.transactions, move.released (.own transaction) = 1
  initiator : .byInitiator ∈ move.log ↔ move.taken = false
  target : .atEnd .destination ∈ move.log ↔ move.taken = true
  old : (∃ slot, .byMove slot ∈ move.log) ↔ move.taken = true

/-- The initiator decides that the target has not taken the slot, since it does not see the
target, or cannot send it a signal, but the target took it. -/
def Move.DecidesBlindly (move : Move) : MoveEvent → Prop
  | .send => move.initiator = .signalling ∧ move.presence ≠ .live ∧ move.taken = true
  | .timeout => move.initiator = .waiting ∧ move.presence = .gone ∧ move.taken = true
  | .cancel => move.initiator = .waiting ∧ move.presence = .gone ∧ move.taken = true
  | _ => False

def Sighted : Move → List MoveEvent → Prop
  | _, [] => True
  | move, event :: rest =>
    ¬move.DecidesBlindly event ∧ ∀ after, step move event = some after → Sighted after rest

/-! ### The invariant -/

structure Inv (move : Move) : Prop where
  ready : move.initiator = .ready → move.movetoResSlot = false ∧ move.taken = false
  offered : move.initiator = .signalling ∨ move.initiator = .waiting →
    move.movetoCallerPid = true ∧ (move.movetoResSlot = !move.taken) ∧
      (move.taken = true → move.movetoGroupId = false)
  signalling : move.initiator = .signalling → move.presence ≠ .gone
  unoffered : move.initiator = .ready → move.movetoCallerPid = false
  withdrawn : move.initiator = .finished → move.presence ≠ .gone → move.movetoResSlot = false
  initiator : move.log.count .byInitiator =
    if move.initiator = .finished ∧ move.taken = false then 1 else 0
  switching : move.switching = true →
    move.taken = true ∧ move.presence = .live ∧ ∃ transaction, move.slot = some (.own transaction)
  holds : move.slot = some .destination → move.taken = true ∧ move.switching = false
  absent : move.presence ≠ .live → move.slot = none
  atEnd : move.log.count (.atEnd .destination) =
    if move.taken = true ∧ move.switching = false ∧ move.slot ≠ some .destination then 1 else 0
  moved : (∃ slot, .byMove slot ∈ move.log) ↔ move.taken = true ∧ move.switching = false
  movedOwn : ∀ slot, .byMove slot ∈ move.log → slot ≠ .destination
  own : ∀ transaction, move.released (.own transaction) +
      (if move.slot = some (.own transaction) then 1 else 0) =
    if transaction < move.transactions then 1 else 0

open Move

theorem inv_start : Inv .start := by
  constructor <;> simp [start, released]

section

variable {move after : Move}

theorem inv_finish_false (inv : Inv move) (running : move.initiator ≠ .finished)
    (notTaken : move.taken = false) (resSlot groupId callerPid)
    (withdrawn : move.presence ≠ .gone → resSlot = false) :
    Inv ({ move with
      movetoResSlot := resSlot, movetoGroupId := groupId
      movetoCallerPid := callerPid }.finish false) := by
  have byInitiator := inv.initiator
  rw [if_neg (by simp [running])] at byInitiator
  exact { inv with
    ready := by simp [finish]
    offered := by simp [finish]
    signalling := by simp [finish]
    unoffered := by simp [finish]
    withdrawn _ := withdrawn
    initiator := by simp [finish, notTaken, byInitiator]
    atEnd := by simpa [finish] using inv.atEnd
    moved := by simpa [finish] using inv.moved
    movedOwn := by simpa [finish] using inv.movedOwn
    own xact := by
      simpa [finish, released, Release.slot] using inv.own xact }

theorem inv_finish_true (inv : Inv move) (taken : move.taken) : Inv ({ move with
      movetoResSlot := false, movetoGroupId := false
      movetoCallerPid := false }.finish true) := by
  have byInitiator := inv.initiator
  exact { inv with
    ready := by simp [finish]
    offered := by simp [finish]
    signalling := by simp [finish]
    unoffered := by simp [finish]
    withdrawn _ _ := rfl
    initiator := by simp [finish, taken, byInitiator] }

theorem inv_signalTarget (inv : Inv move) (isReady : move.initiator = .ready) :
    Inv move.signalTarget := by
  obtain ⟨noSlot, notTaken⟩ := inv.ready isReady
  unfold signalTarget
  split_ifs with missing
  · exact inv_finish_false inv (by simp [isReady]) notTaken move.movetoResSlot
      move.movetoGroupId move.movetoCallerPid fun _ => noSlot
  · rw [not_or] at missing
    have byInitiator := inv.initiator
    rw [if_neg (by simp [isReady])] at byInitiator
    exact { inv with
      ready := by simp
      offered := by simp [notTaken]
      signalling _ := missing.1
      unoffered := by simp
      withdrawn := by simp
      initiator := by simpa using byInitiator }

theorem inv_sendProcSignal (inv : Inv move) (isSignalling : move.initiator = .signalling)
    (sighted : ¬move.DecidesBlindly .send) : Inv move.sendProcSignal := by
  unfold sendProcSignal
  split_ifs with live
  · have byInitiator := inv.initiator
    rw [if_neg (by simp [isSignalling])] at byInitiator
    exact { inv with
      ready := by simp
      offered _ := inv.offered (.inl isSignalling)
      signalling := by simp
      unoffered := by simp
      withdrawn := by simp
      initiator := by simpa using byInitiator }
  · have notTaken : move.taken = false := by
      rw [← Bool.not_eq_true]
      exact fun taken => sighted ⟨isSignalling, live, taken⟩
    exact inv_finish_false inv (by simp [isSignalling]) notTaken false false false fun _ => rfl

theorem poll_of_gone (gone : move.presence = .gone) (clean) :
    move.poll clean = if clean then move.finish false else move := by
  have checked : move.checkTargetReady clean = (move, clean, false) :=
    if_neg (by simp [gone])
  rw [poll, checked]

theorem poll_of_seen (seen : move.presence ≠ .gone) (callerPid : move.movetoCallerPid) (clean) :
    move.poll clean = if clean || !move.movetoGroupId then
        { move with
          movetoResSlot := false, movetoGroupId := false
          movetoCallerPid := false }.finish (!move.movetoGroupId && !move.movetoResSlot)
      else move := by
  have checked : move.checkTargetReady clean = if clean || !move.movetoGroupId then
        ({ move with
          movetoResSlot := false, movetoGroupId := false, movetoCallerPid := false }, true,
          !move.movetoGroupId && !move.movetoResSlot)
      else (move, clean, false) := if_pos ⟨seen, callerPid⟩
  rw [poll, checked]
  cases clean <;> cases move.movetoGroupId <;> rfl

theorem inv_poll (inv : Inv move) (isWaiting : move.initiator = .waiting) (clean)
    (sighted : clean = true → ¬(move.presence = .gone ∧ move.taken = true)) :
    Inv (move.poll clean) := by
  obtain ⟨callerPid, resSlot, groupId⟩ := inv.offered (.inr isWaiting)
  have running : move.initiator ≠ .finished := by simp [isWaiting]
  by_cases gone : move.presence = .gone
  · rw [poll_of_gone gone]
    split_ifs with limit
    · have notTaken : move.taken = false := by
        rw [← Bool.not_eq_true]
        exact fun taken => sighted limit ⟨gone, taken⟩
      exact inv_finish_false inv running notTaken move.movetoResSlot move.movetoGroupId
        move.movetoCallerPid (absurd gone)
    · exact inv
  · rw [poll_of_seen gone callerPid]
    split_ifs with ends
    · by_cases taken : move.taken = true
      · have res : (!move.movetoGroupId && !move.movetoResSlot) := by
          simp [groupId taken, resSlot, taken]
        rw [res]
        exact inv_finish_true inv taken
      · rw [Bool.not_eq_true] at taken
        have res : (!move.movetoGroupId && !move.movetoResSlot) = false := by
          simp [resSlot, taken]
        rw [res]
        exact inv_finish_false inv running taken false false false fun _ => rfl
    · exact inv

theorem handleMove_irrelevant (attached : move.switching = false)
    (nothing : move.slot = none ∨ move.movetoResSlot = false) :
    move.handleMove = { move with movetoGroupId := false } := by
  unfold handleMove
  cases isSlot : move.slot with
  | none => rfl
  | some slot =>
    have offer : move.movetoResSlot = false := by simpa [isSlot] using nothing
    simp [offer, attached]

theorem handleMove_takes {slot} (isSlot : move.slot = some slot) (offer : move.movetoResSlot) :
    move.handleMove = { move with
        movetoResSlot := false, movetoGroupId := false, switching := true, taken := true } := by
  simp [handleMove, isSlot, offer]

section

variable (inv : Inv move)
include inv

theorem inv_handleMove (live : move.presence = .live) (attached : move.switching = false) :
    Inv move.handleMove := by
  by_cases nothing : move.slot = none ∨ move.movetoResSlot = false
  · rw [handleMove_irrelevant attached nothing]
    exact { inv with
      offered active := ⟨(inv.offered active).1, (inv.offered active).2.1, fun _ => rfl⟩ }
  · rw [not_or, Bool.not_eq_false] at nothing
    obtain ⟨assigned, offer⟩ := nothing
    obtain ⟨slot, isSlot⟩ := ne_none_iff_exists'.mp assigned
    -- The slot is offered, so the initiator is between its signal and its decision.
    have active : move.initiator = .signalling ∨ move.initiator = .waiting := by
      cases isInitiator : move.initiator with
      | ready =>
        have := (inv.ready isInitiator).1
        simp [offer] at this
      | signalling => exact .inl rfl
      | waiting => exact .inr rfl
      | finished =>
        have := inv.withdrawn isInitiator (by simp [live])
        simp [offer] at this
    have running : move.initiator ≠ .finished := by
      rintro done
      simp [done] at active
    obtain ⟨callerPid, resSlot, -⟩ := inv.offered active
    have notTaken : move.taken = false := by simpa [offer] using resSlot
    have notDestination : slot ≠ .destination := by
      rintro rfl
      have := (inv.holds isSlot).1
      simp [notTaken] at this
    obtain ⟨xact, rfl⟩ : ∃ xact, slot = .own xact := by
      cases slot with
      | own xact => exact ⟨xact, rfl⟩
      | destination => exact absurd rfl notDestination
    rw [handleMove_takes isSlot offer]
    have byInitiator := inv.initiator
    have atEnd := inv.atEnd
    have moved := inv.moved
    rw [if_neg (by simp [notTaken])] at atEnd
    exact { inv with
      ready isReady := by
        have isReady : move.initiator = .ready := isReady
        simp [isReady] at active
      offered _ := ⟨callerPid, rfl, fun _ => rfl⟩
      withdrawn _ _ := rfl
      initiator := by simpa [running] using byInitiator
      switching _ := ⟨rfl, live, xact, isSlot⟩
      holds isDestination := by
        rw [isSlot] at isDestination
        cases isDestination
      atEnd := by simpa using atEnd
      moved := by simpa [notTaken] using moved }

theorem inv_attach (isSwitching : move.switching) : Inv move.attach := by
  obtain ⟨taken, live, xact, isSlot⟩ := inv.switching isSwitching
  have atEnd := inv.atEnd
  rw [if_neg (by simp [isSwitching])] at atEnd
  unfold Move.attach
  rw [isSlot]
  exact { inv with
    initiator := by simpa using inv.initiator
    switching := by simp
    holds _ := ⟨taken, rfl⟩
    absent away := absurd live away
    atEnd := by simpa using atEnd
    moved := by simp [taken]
    movedOwn slot mem := by
      simp only [toList_some, map_cons, map_nil, mem_append,
        mem_singleton, Release.byMove.injEq] at mem
      rcases mem with old | rfl
      · exact inv.movedOwn slot old
      · simp
    own other := by
      have own := inv.own other
      rw [isSlot] at own
      simp only [released] at own ⊢
      by_cases same : xact = other
      · simpa [same, Release.slot] using own
      · simpa [same, Release.slot] using own }

theorem inv_beginTransaction (live : move.presence = .live) (idle : move.slot = none) :
    Inv { move with
      slot := some (.own move.transactions), transactions := move.transactions + 1 } := by
  exact { inv with
    switching isSwitching := ⟨(inv.switching isSwitching).1, live, _, rfl⟩
    holds := by simp
    absent away := absurd live away
    atEnd := by simpa [idle] using inv.atEnd
    own xact := by
      have own := inv.own xact
      simp only [idle, reduceCtorEq, if_false, Nat.add_zero] at own
      have same : released { move with
          slot := some (.own move.transactions), transactions := move.transactions + 1 }
          (.own xact) = move.released (.own xact) := rfl
      rw [same, own]
      simp only [some.injEq, Slot.own.injEq]
      split_ifs <;> omega }

theorem inv_endTransaction {slot} (isSlot : move.slot = some slot)
    (attached : move.switching = false) : Inv (move.endTransaction slot) := by
  have atEnd := inv.atEnd
  unfold endTransaction
  exact { inv with
    initiator := by simpa using inv.initiator
    switching := by simp [attached]
    holds := by simp
    absent _ := rfl
    atEnd := by
      cases slot with
      | own xact => simpa [isSlot] using atEnd
      | destination =>
        obtain ⟨taken, -⟩ := inv.holds isSlot
        simpa [isSlot, attached, taken] using atEnd
    moved := by simpa using inv.moved
    movedOwn := by simpa using inv.movedOwn
    own xact := by
      have own := inv.own xact
      rw [isSlot] at own
      simp only [released] at own ⊢
      by_cases same : slot = .own xact
      · simpa [same, Release.slot] using own
      · simpa [same, Release.slot] using own }

theorem inv_presence (idle : move.slot = none) (presence)
    (leaves : presence = .gone → move.initiator ≠ .signalling)
    (stays : presence ≠ .gone → move.presence ≠ .gone) :
    Inv { move with presence := presence } := by
  have attached : move.switching = false := by
    rw [← Bool.not_eq_true]
    intro isSwitching
    obtain ⟨-, -, _, isSlot⟩ := inv.switching isSwitching
    simp [idle] at isSlot
  exact { inv with
    signalling isSignalling isGone := leaves isGone isSignalling
    withdrawn done here := inv.withdrawn done (stays here)
    switching := by simp [attached]
    absent _ := idle }

theorem inv_step {event} (sighted : ¬move.DecidesBlindly event)
    (taken : step move event = some after) : Inv after := by
  cases event with
  | signal =>
    obtain ⟨isReady, rfl⟩ := guard_eq_some taken
    exact inv_signalTarget inv isReady
  | send =>
    obtain ⟨isSignalling, rfl⟩ := guard_eq_some taken
    exact inv_sendProcSignal inv isSignalling sighted
  | poll =>
    obtain ⟨isWaiting, rfl⟩ := guard_eq_some taken
    exact inv_poll inv isWaiting false (by simp)
  | timeout =>
    obtain ⟨isWaiting, rfl⟩ := guard_eq_some taken
    exact inv_poll inv isWaiting true fun _ blind => sighted ⟨isWaiting, blind⟩
  | cancel =>
    obtain ⟨isWaiting, rfl⟩ := guard_eq_some taken
    exact inv_poll inv isWaiting true fun _ blind => sighted ⟨isWaiting, blind⟩
  | beginTransaction =>
    obtain ⟨⟨live, idle⟩, rfl⟩ := guard_eq_some taken
    exact inv_beginTransaction inv live idle
  | endTransaction =>
    unfold step at taken
    cases isSlot : move.slot with
    | none => simp [isSlot] at taken
    | some slot =>
      rw [isSlot] at taken
      obtain ⟨attached, eq⟩ := ite_none_left_eq_some.mp taken
      cases eq
      exact inv_endTransaction inv isSlot (Bool.not_eq_true _ ▸ attached)
  | handleMove =>
    obtain ⟨⟨live, attached⟩, rfl⟩ := guard_eq_some taken
    exact inv_handleMove inv live attached
  | attach =>
    obtain ⟨isSwitching, rfl⟩ := guard_eq_some taken
    exact inv_attach inv isSwitching
  | exit =>
    obtain ⟨⟨live, idle⟩, rfl⟩ := guard_eq_some taken
    exact inv_presence inv idle .exiting (by simp) (by simp [live])
  | leave =>
    obtain ⟨⟨exiting, notSignalling⟩, rfl⟩ := guard_eq_some taken
    exact inv_presence inv (inv.absent (by simp [exiting])) .gone (fun _ => notSignalling) (by simp)

end

end

/-! ### Whole runs -/

section

variable {move after : Move} {events : List MoveEvent}

theorem inv_of_sighted (inv : Inv move) (sighted : Sighted move events)
    (run : events.foldlM step move = some after) : Inv after := by
  induction events generalizing move with
  | nil =>
    cases run
    exact inv
  | cons event rest ih =>
    obtain ⟨mid, first, others⟩ := bind_eq_some_iff.mp run
    exact ih (inv_step inv sighted.1 first) (sighted.2 mid first) others

theorem count_destination (log : List Release) :
    (log.map Release.slot).count .destination = log.count .byInitiator +
      log.count (.atEnd .destination) + log.count (.byMove .destination) := by
  induction log with
  | nil => rfl
  | cons release rest ih =>
    rw [map_cons, count_cons, ih]
    cases release with
    | byInitiator =>
      simp [Release.slot]
      omega
    | byMove slot =>
      cases slot <;> simp [Release.slot]
      omega
    | atEnd slot =>
      cases slot <;> simp [Release.slot]
      omega

theorem releasedOnce_of_inv (inv : Inv move) (done : move.Done) : move.ReleasedOnce := by
  have attached : move.switching = false := by
    rw [← Bool.not_eq_true]
    intro isSwitching
    obtain ⟨-, -, xact, isSlot⟩ := inv.switching isSwitching
    simp [done.target] at isSlot
  have byInitiator := inv.initiator
  have atEnd := inv.atEnd
  have moved := inv.moved
  have noMove : move.log.count (.byMove .destination) = 0 :=
    count_eq_zero.mpr fun mem => inv.movedOwn _ mem rfl
  simp only [done.initiator] at byInitiator
  simp only [done.target, attached] at atEnd
  constructor
  · rw [released, count_destination, byInitiator, atEnd, noMove]
    cases move.taken <;> rfl
  · intro xact lt
    have own := inv.own xact
    simpa [done.target, lt] using own
  · rw [← count_pos_iff, byInitiator]
    cases move.taken <;> simp
  · rw [← count_pos_iff, atEnd]
    cases move.taken <;> simp
  · simpa [attached] using moved

def Move.Doubled (move : Move) : Prop := move.taken = true ∧ .byInitiator ∈ move.log

theorem doubled_step {event} (doubled : move.Doubled) (taken : step move event = some after) :
    after.Doubled := by
  obtain ⟨isTaken, released⟩ := doubled
  have finish : ∀ (other : Move) (res : Bool), other.taken = true → .byInitiator ∈ other.log →
      (other.finish res).Doubled := by
    intro other res otherTaken otherReleased
    cases res <;> simp [finish, Doubled, otherTaken, otherReleased]
  have poll (clean) : (move.poll clean).Doubled := by
    unfold poll checkTargetReady
    dsimp only
    split_ifs <;> first | exact finish _ _ isTaken released | exact ⟨isTaken, released⟩
  cases event with
  | signal =>
    obtain ⟨-, rfl⟩ := guard_eq_some taken
    unfold signalTarget
    split_ifs
    · exact finish _ _ isTaken released
    · exact ⟨isTaken, released⟩
  | send =>
    obtain ⟨-, rfl⟩ := guard_eq_some taken
    unfold sendProcSignal
    split_ifs
    · exact ⟨isTaken, released⟩
    · exact finish _ _ isTaken released
  | poll | timeout | cancel =>
    obtain ⟨-, rfl⟩ := guard_eq_some taken
    exact poll _
  | beginTransaction | exit | leave =>
    obtain ⟨-, rfl⟩ := guard_eq_some taken
    exact ⟨isTaken, released⟩
  | endTransaction =>
    unfold step at taken
    cases isSlot : move.slot with
    | none => simp [isSlot] at taken
    | some slot =>
      rw [isSlot] at taken
      obtain ⟨-, eq⟩ := ite_none_left_eq_some.mp taken
      cases eq
      exact ⟨isTaken, mem_append_left _ released⟩
  | handleMove =>
    obtain ⟨-, rfl⟩ := guard_eq_some taken
    unfold handleMove
    split
    · exact ⟨isTaken, released⟩
    · exact ⟨by simp [isTaken], released⟩
  | attach =>
    obtain ⟨-, rfl⟩ := guard_eq_some taken
    exact ⟨isTaken, mem_append_left _ released⟩

theorem doubled_of_blind {event} (blind : move.DecidesBlindly event)
    (taken : step move event = some after) : after.Doubled := by
  cases event with
  | send =>
    obtain ⟨-, notLive, isTaken⟩ := blind
    obtain ⟨-, rfl⟩ := guard_eq_some taken
    rw [sendProcSignal, if_neg notLive]
    exact ⟨isTaken, by simp [finish]⟩
  | timeout | cancel =>
    obtain ⟨-, gone, isTaken⟩ := blind
    obtain ⟨-, rfl⟩ := guard_eq_some taken
    rw [poll_of_gone gone, if_pos rfl]
    exact ⟨isTaken, by simp [finish]⟩
  | _ => exact blind.elim

theorem doubled_run (doubled : move.Doubled) (run : events.foldlM step move = some after) :
    after.Doubled := by
  induction events generalizing move with
  | nil =>
    cases run
    exact doubled
  | cons event rest ih =>
    obtain ⟨_, first, others⟩ := bind_eq_some_iff.mp run
    exact ih (doubled_step doubled first) others

theorem doubled_of_not_sighted (blind : ¬Sighted move events)
    (run : events.foldlM step move = some after) : after.Doubled := by
  induction events generalizing move with
  | nil => exact absurd trivial blind
  | cons event rest ih =>
    obtain ⟨_, first, others⟩ := bind_eq_some_iff.mp run
    by_cases now : move.DecidesBlindly event
    · exact doubled_run (doubled_of_blind now first) others
    · apply ih _ others
      intro sighted
      apply blind
      refine ⟨now, fun other isOther => ?_⟩
      rw [first] at isOther
      cases isOther
      exact sighted

end

/-- When both are done, every slot was released exactly once, the destination slot by the one who
had it, exactly if the initiator never decided without seeing the target that took the slot. -/
theorem releasedOnce_iff_sighted (events : List MoveEvent) (move : Move)
    (run : events.foldlM step .start = some move) (done : move.Done) :
    move.ReleasedOnce ↔ Sighted .start events := by
  constructor
  · intro once
    by_contra blind
    obtain ⟨taken, released⟩ := doubled_of_not_sighted blind run
    have notTaken := once.initiator.mp released
    simp [taken] at notTaken
  · intro sighted
    exact releasedOnce_of_inv (inv_of_sighted inv_start sighted run) done

def movedQuery : List MoveEvent :=
  [.beginTransaction, .signal, .send, .handleMove, .attach, .poll, .endTransaction]

def afterMovedQuery : Move where
  movetoResSlot := false
  movetoGroupId := false
  movetoCallerPid := false
  initiator := .finished
  presence := .live
  slot := none
  switching := false
  transactions := 1
  taken := true
  log := [.byMove (.own 0), .atEnd .destination]

theorem releasedOnce_iff_sighted_movedQuery :
    afterMovedQuery.ReleasedOnce ↔ Sighted .start movedQuery :=
  releasedOnce_iff_sighted movedQuery afterMovedQuery (by decide) ⟨rfl, rfl⟩

/-- The target takes the slot and exits before the initiator looks, which then waits for its time
limit. -/
def vanishedTarget : List MoveEvent :=
  [.beginTransaction, .signal, .send, .handleMove, .attach, .endTransaction, .exit, .leave, .poll,
    .timeout]

/-- The destination slot is released by both. -/
theorem releasedOnce_fails : ∃ move, vanishedTarget.foldlM step .start = some move ∧ move.Done ∧
    move.log = [.byMove (.own 0), .atEnd .destination, .byInitiator] ∧
    move.released .destination = 2 ∧ ¬move.ReleasedOnce := by
  refine ⟨_, rfl, ⟨rfl, rfl⟩, rfl, rfl, fun once => ?_⟩
  have destination := once.destination
  revert destination
  decide

end Greengage.ResGroup
