import Greengage.Proxy.Clients

/-!
Contract: packets reach the incarnation they were sent for.

Does not own: when the events happen. An incarnation that waits gets its packets when the client
before it is closed, which needs both directions to be shut down.
-/

namespace Greengage.Proxy

open Option Foundations Client Registry Entry Bool

variable {α : Type}

structure HandledCache (client : Client α) (pkts : List (Pkt α)) (after : Client α)
    (taken : List (Pkt α)) : Prop where
  split : taken ++ after.pkts = pkts
  incarnation : after.incarnation = client.incarnation
  p2cShutted : after.p2cShutted = client.p2cShutted
  shutting : client.p2cShutting = true → taken = []
  closes : after.p2cShutting.toNat = client.p2cShutting.toNat + closes taken
  upToDate : after.p2cShutting = false → after.pkts = []
  numbered : ∀ number, numbered number taken = taken.map (number, ·)
  unconsumed : ∀ number : Nat, after.unconsumed.map (number, ·) =
    client.unconsumed.map (number, ·) ++ numberedValues (taken.map (number, ·))

theorem handleCache_spec (client) (pkts : List (Pkt α)) :
    HandledCache client pkts (client.handleCache pkts).1 (client.handleCache pkts).2 := by
  induction pkts generalizing client with
  | nil =>
    constructor <;> simp [handleCache, closes, numbered, numberedValues]
  | cons pkt rest ih =>
    rw [handleCache]
    by_cases shutting : client.p2cShutting = true
    · constructor <;> simp [closes, numbered, numberedValues, shutting]
    · have later := ih (client.take pkt)
      rw [if_neg shutting]
      dsimp only
      cases pkt with
      | value cid =>
        refine ⟨by simp [later.split], later.incarnation, later.p2cShutted,
          fun isShutting => by simp [shutting] at isShutting, ?_, later.upToDate, ?_, ?_⟩
        · simpa [closes, take] using later.closes
        · intro num
          simp [numbered, later.numbered num]
        · intro num
          rw [later.unconsumed num]
          simp [take, numberedValues]
      | close =>
        -- The rest is left to the next incarnation.
        have none := later.shutting rfl
        refine ⟨by simp [later.split], later.incarnation, later.p2cShutted,
          fun isShutting => by simp [shutting] at isShutting, ?_, later.upToDate, ?_, ?_⟩
        · rw [later.closes, none]
          simp [closes, take, shutting]
        · intro num
          simp [numbered, none]
        · intro num
          rw [later.unconsumed num, none]
          simp [take, numberedValues]

/-! ### What an event does -/

/-- The events, with what they need and what they lead to. -/
inductive Moved (registry : Registry α) : ClientEvent α → Registry α → Prop
  | arrive (pkt : Pkt α) : Moved registry (.arrive pkt) (registry.route pkt)
  | hello : Moved registry .hello registry.hello
  | shutdownC2p {client : Client α} {successor : Option Nat}
      (isEntry : registry.entry = .client client successor) :
      Moved registry .shutdownC2p (registry.shutdownC2p client successor)
  | sentBye {client : Client α} {successor : Option Nat}
      (isEntry : registry.entry = .client client successor) :
      Moved registry .sentBye (registry.onSentC2pBye client successor)
  | sentAck {client : Client α} {successor : Option Nat}
      (isEntry : registry.entry = .client client successor) :
      Moved registry .sentAck (registry.onSentC2pResume client successor)
  | sentData {client : Client α} {successor : Option Nat} {content : α} {rest : List α}
      (isEntry : registry.entry = .client client successor)
      (pending : client.unconsumed = content :: rest) :
      Moved registry .sentData (registry.onSentP2cData client successor content rest)
  | shutP2c {client : Client α} {successor : Option Nat}
      (isEntry : registry.entry = .client client successor)
      (shutting : client.p2cShutting = true) (notYet : client.p2cShutted = false)
      (done : client.unconsumed = []) :
      Moved registry .shutP2c (registry.onShutdownP2c client successor)

variable {event : ClientEvent α}

theorem moved_of_step {reg after} (taken : reg.step event = some after) :
    reg.failed = false ∧ Moved reg event after := by
  unfold Registry.step at taken
  rw [ite_none_left_eq_some, not_eq_true] at taken
  obtain ⟨running, taken⟩ := taken
  refine ⟨running, ?_⟩
  split at taken
  · cases taken
    exact .arrive _
  · cases taken
    exact .hello
  · rename_i client succ isEntry
    unfold clientStep at taken
    split at taken
    · cases taken
      exact .shutdownC2p isEntry
    · obtain ⟨-, rfl⟩ := guard_eq_some taken
      exact .sentBye isEntry
    · obtain ⟨-, rfl⟩ := guard_eq_some taken
      exact .sentAck isEntry
    · split at taken
      · cases taken
      · rename_i pending
        cases taken
        exact .sentData isEntry pending
    · rw [ite_none_right_eq_some, some.injEq, not_eq_true'] at taken
      obtain ⟨⟨shutting, notYet, done⟩, rfl⟩ := taken
      exact .shutP2c isEntry shutting notYet done
    · cases taken
  · cases taken

variable {registry reg : Registry α} {client : Client α} {successor succ : Option Nat}

theorem route_of_no_client (noClient : ∀ client succ, reg.entry ≠ .client client succ) (pkt) :
    reg.route pkt = { reg with
        entry := .placeholder (reg.entry.cached ++ [pkt])
        arrived := reg.arrived ++ [pkt] } := by
  unfold route
  cases isEntry : reg.entry with
  | empty => rfl
  | placeholder pkts => rfl
  | client client succ => exact absurd isEntry (noClient client succ)

section

variable (isEntry : reg.entry = .client client succ)
include isEntry

theorem route_of_running (running : client.p2cShutting = false) (pkt) : reg.route pkt = { reg with
        entry := .client (client.take pkt) succ
        arrived := reg.arrived ++ [pkt]
        taken := reg.taken ++ [(client.incarnation, pkt)] } := by
  simp [route, isEntry, running]

theorem route_data_of_shutting (shutting : client.p2cShutting) (cid) :
    reg.route (.data cid) = { reg with
        entry := .client { client with pkts := client.pkts ++ [.data cid] } succ
        arrived := reg.arrived ++ [.data cid] } := by
  simp [route, isEntry, shutting]

theorem route_bye_of_shutting (shutting : client.p2cShutting) : reg.route .bye =
      { reg with arrived := reg.arrived ++ [Pkt.bye] }.maybeClose client succ := by
  simp [route, isEntry, shutting]

end

theorem hello_of_no_client (noClient : ∀ client succ, reg.entry ≠ .client client succ) :
    reg.hello = { reg with hellos := reg.hellos + 1 }.register reg.hellos reg.entry.cached := by
  unfold hello
  cases isEntry : reg.entry with
  | empty => rfl
  | placeholder pkts => rfl
  | client client succ => exact absurd isEntry (noClient client succ)

/-! ### The balance -/

def Registry.kept (registry : Registry α) : Nat :=
  registry.taken.length + registry.entry.cached.length

variable {after : Registry α}

theorem register_kept (turn : Nat) (pkts : List (Pkt α)) :
    (reg.register turn pkts).kept = reg.taken.length + pkts.length := by
  have split := (handleCache_spec (new turn) pkts).split
  have lengths := congrArg List.length split
  rw [List.length_append] at lengths
  simp only [kept, register, cached, List.length_append, List.length_map]
  omega

theorem close_kept (client : Client α) (succ : Option Nat) (reg : Registry α) :
    (reg.close client succ).kept = reg.taken.length + client.pkts.length ∧
    (reg.close client succ).arrived = reg.arrived := by
  cases succ with
  | some succ => exact ⟨register_kept succ client.pkts, rfl⟩
  | none =>
    unfold close
    split_ifs with empty <;> simp [kept, cached, empty]

theorem maybeClose_kept (client : Client α) (succ : Option Nat) (reg : Registry α) :
    (reg.maybeClose client succ).kept = reg.taken.length + client.pkts.length ∧
    (reg.maybeClose client succ).arrived = reg.arrived := by
  unfold maybeClose
  split_ifs
  · exact close_kept client succ reg
  · exact ⟨rfl, rfl⟩

/-- The packets that arrived grow by at least as much as those that are kept, and by more if the
event loses one. -/
theorem step_balance (moved : Moved reg event after) :
    after.kept + reg.arrived.length ≤ reg.kept + after.arrived.length ∧
      (reg.Loses event → after.failed = true ∨
        after.kept + reg.arrived.length < reg.kept + after.arrived.length) := by
  have keptOf : ∀ {client succ}, reg.entry = .client client succ →
      reg.kept = reg.taken.length + client.pkts.length := by
    intro client succ isEntry
    rw [kept, isEntry, cached]
  cases moved with
  | arrive pkt =>
    cases isEntry : reg.entry with
    | client client succ =>
      rw [keptOf isEntry]
      cases shutting : client.p2cShutting with
      | false =>
        rw [route_of_running isEntry shutting]
        cases pkt <;> simp [kept, cached, take, Loses, isEntry, shutting] <;> omega
      | true =>
        cases pkt with
        | value cid =>
          rw [route_data_of_shutting isEntry shutting]
          simp [kept, cached, Loses]
          omega
        | close =>
          have balance := maybeClose_kept client succ
            { reg with arrived := reg.arrived ++ [Pkt.bye] }
          rw [route_bye_of_shutting isEntry shutting, balance.1, balance.2]
          simp
    | _ =>
      rw [route_of_no_client (by simp [isEntry])]
      cases pkt <;> simp [kept, cached, isEntry, Loses] <;> omega
  | hello =>
    cases isEntry : reg.entry with
    | client client succ =>
      cases succ <;>
        simp [kept, isEntry, cached, hello, Loses]
    | _ =>
      rw [hello_of_no_client (by simp [isEntry]), register_kept]
      simp [kept, isEntry, register, Loses]
  | @shutdownC2p client succ isEntry =>
    unfold shutdownC2p
    rw [keptOf isEntry]
    split_ifs
    · have balance := maybeClose_kept client succ reg
      rw [balance.1, balance.2]
      exact ⟨le_rfl, False.elim⟩
    · exact ⟨le_rfl, False.elim⟩
  | @sentBye client succ isEntry =>
    have balance := maybeClose_kept
      { client with byes := client.byes - 1, c2pShutted := true } succ reg
    rw [onSentC2pBye, balance.1, balance.2, keptOf isEntry]
    exact ⟨le_rfl, False.elim⟩
  | @sentAck client succ isEntry =>
    have balance := maybeClose_kept { client with acks := client.acks - 1 } succ reg
    rw [onSentC2pResume, balance.1, balance.2, keptOf isEntry]
    exact ⟨le_rfl, False.elim⟩
  | @sentData client succ cid rest isEntry pending =>
    unfold onSentP2cData
    rw [keptOf isEntry]
    dsimp only
    split_ifs <;> exact ⟨le_rfl, False.elim⟩
  | @shutP2c client succ isEntry =>
    have balance := maybeClose_kept { client with p2cShutted := true } succ
      { reg with ended := reg.ended ++ [client.incarnation] }
    rw [onShutdownP2c, balance.1, balance.2, keptOf isEntry]
    exact ⟨le_rfl, False.elim⟩

/-! ### Runs without loss -/

def Entry.pending : Entry α → List (Nat × α)
  | .client current _ => current.unconsumed.map (current.incarnation, ·)
  | _ => []

def Registry.takenPkts (registry : Registry α) : List (Pkt α) := registry.taken.map Prod.snd

/-- The registered client is that of the first incarnation whose stream has not ended, or of the
last one whose stream has. -/
structure ServedBy (client : Client α) (successor : Option Nat) (hellos byes : Nat)
    (ended : List Nat) : Prop where
  byes : client.incarnation + client.p2cShutting.toNat = byes
  hellos : hellos = client.incarnation + 1 + successor.isSome.toNat
  successor : ∀ next, successor = some next → next = client.incarnation + 1
  upToDate : client.p2cShutting = false → client.pkts = [] ∧ client.p2cShutted = false
  written : client.p2cShutted = true → client.unconsumed = []
  ended : ended = List.range (client.incarnation + client.p2cShutted.toNat)

/-- Every packet that arrived is taken by its incarnation or kept, in order. -/
structure Faithful (registry : Registry α) : Prop where
  running : registry.failed = false
  conserved : registry.takenPkts ++ registry.entry.cached = registry.arrived
  own : registry.taken = numbered 0 registry.takenPkts
  writes : registry.written ++ registry.entry.pending = numberedValues registry.taken
  served : ∀ client successor, registry.entry = .client client successor →
    ServedBy client successor registry.hellos (closes registry.takenPkts) registry.ended
  vacant : (∀ client successor, registry.entry ≠ .client client successor) →
    registry.hellos = closes registry.takenPkts ∧ registry.ended = List.range registry.hellos

theorem register_faithful {incarnation pkts} (running : reg.failed = false)
    (conserved : reg.takenPkts ++ pkts = reg.arrived)
    (own : reg.taken = numbered 0 reg.takenPkts)
    (writes : reg.written = numberedValues reg.taken)
    (turn : incarnation = closes reg.takenPkts) (hellos : reg.hellos = incarnation + 1)
    (ended : reg.ended = List.range incarnation) :
    Faithful (reg.register incarnation pkts) := by
  have handled := handleCache_spec (new incarnation) pkts
  unfold Registry.takenPkts at conserved own turn
  unfold register
  set after := (new (α := α) incarnation).handleCache pkts
  have takenPkts : (reg.taken ++ after.2.map (incarnation, ·)).map Prod.snd =
      reg.taken.map Prod.snd ++ after.2 := by
    simp
  have isIncarnation : after.1.incarnation = incarnation := handled.incarnation
  constructor
  · exact running
  · simp only [Registry.takenPkts, takenPkts, cached]
    rw [List.append_assoc, handled.split, conserved]
  · simp only [Registry.takenPkts, takenPkts]
    rw [numbered_append, zero_add, ← turn, handled.numbered, ← own]
  · simp only [pending, isIncarnation]
    rw [handled.unconsumed incarnation, numberedValues_append, ← writes]
    rfl
  · rintro _ _ ⟨⟩
    constructor
    · simp only [Registry.takenPkts, takenPkts, closes_append]
      rw [isIncarnation, handled.closes, ← turn]
      simp [new]
    · simp [isIncarnation, hellos]
    · intro _ isNext
      cases isNext
    · intro notShutting
      exact ⟨handled.upToDate notShutting, handled.p2cShutted⟩
    · intro shutted
      rw [handled.p2cShutted] at shutted
      cases shutted
    · rw [isIncarnation, handled.p2cShutted]
      exact ended
  · intro noClient
    exact absurd rfl (noClient _ _)

theorem close_faithful (ok : Faithful { reg with entry := .client client succ })
    (shutted : client.p2cShutted) : Faithful (reg.close client succ) := by
  have served := ok.served client succ rfl
  have shutting : client.p2cShutting := by
    by_contra notShutting
    have := (served.upToDate (not_eq_true _ ▸ notShutting)).2
    simp [shutted] at this
  have turn := served.byes
  have hellos := served.hellos
  have ended := served.ended
  have writes := ok.writes
  simp only [pending, served.written shutted, List.map_nil, List.append_nil] at writes
  rw [shutting] at turn
  rw [shutted] at ended
  cases succ with
  | some next =>
    have isNext := served.successor next rfl
    subst isNext
    exact register_faithful ok.running ok.conserved ok.own writes turn hellos ended
  | none =>
    have conserved := ok.conserved
    unfold close
    split_ifs with empty
    · refine ⟨ok.running, ?_, ok.own, ?_, ?_, fun _ => ⟨?_, ?_⟩⟩
      · simpa [cached, takenPkts, empty] using conserved
      · simpa [pending] using writes
      · rintro client succ ⟨⟩
      · exact hellos.trans turn
      · rw [hellos]
        exact ended
    · refine ⟨ok.running, conserved, ok.own, ?_, ?_, fun _ => ⟨?_, ?_⟩⟩
      · simpa [pending] using writes
      · rintro client succ ⟨⟩
      · exact hellos.trans turn
      · rw [hellos]
        exact ended

theorem maybeClose_faithful (ok : Faithful { reg with entry := .client client succ }) :
    Faithful (reg.maybeClose client succ) := by
  unfold maybeClose
  split_ifs with ready
  · exact close_faithful ok ready.2.2
  · exact ok

section

variable (ok : Faithful reg)
include ok

theorem Faithful.replace {changed} (isEntry : reg.entry = .client client succ)
    (turn : changed.incarnation = client.incarnation)
    (shutting : changed.p2cShutting = client.p2cShutting)
    (shutted : changed.p2cShutted = client.p2cShutted)
    (unconsumed : changed.unconsumed = client.unconsumed) (pkts : changed.pkts = client.pkts) :
    Faithful { reg with entry := .client changed succ } := by
  have served := ok.served client succ isEntry
  have conserved := ok.conserved
  have writes := ok.writes
  rw [isEntry] at conserved writes
  refine ⟨ok.running, ?_, ok.own, ?_, ?_, fun noClient => absurd rfl (noClient _ _)⟩
  · rwa [cached, pkts]
  · rwa [pending, turn, unconsumed]
  · rintro _ _ ⟨⟩
    obtain ⟨_, _, _, _, _, _⟩ := served
    constructor
    · rwa [turn, shutting]
    · rwa [turn]
    · rwa [turn]
    · rwa [shutting, pkts, shutted]
    · rwa [shutted, unconsumed]
    · rwa [turn, shutted]

theorem route_faithful (pkt) (keeps : ¬reg.Loses (.arrive pkt)) : Faithful (reg.route pkt) := by
  have conserved := ok.conserved
  have writes := ok.writes
  cases isEntry : reg.entry with
  | client client succ =>
    have served := ok.served client succ isEntry
    rw [isEntry, cached] at conserved
    rw [isEntry, pending] at writes
    cases shutting : client.p2cShutting with
    | false =>
      obtain ⟨noPkts, notShutted⟩ := served.upToDate shutting
      have turn := served.byes
      rw [shutting, toNat_false, add_zero] at turn
      rw [noPkts, List.append_nil] at conserved
      have takenPkts : (reg.taken ++ [(client.incarnation, pkt)]).map Prod.snd =
          reg.takenPkts ++ [pkt] := by simp [Registry.takenPkts]
      rw [route_of_running isEntry shutting]
      refine ⟨ok.running, ?_, ?_, ?_, ?_, fun noClient => absurd rfl (noClient _ _)⟩
      · rw [Registry.takenPkts, takenPkts, conserved]
        cases pkt <;> simp [cached, take, noPkts]
      · rw [Registry.takenPkts, takenPkts, numbered_append, ← ok.own, zero_add, ← turn]
        cases pkt <;> rfl
      · rw [numberedValues_append, ← writes]
        cases pkt <;> simp [pending, take, numberedValues]
      · rintro _ _ ⟨⟩
        rw [Registry.takenPkts, takenPkts, closes_append, ← turn]
        have hellos := served.hellos
        have ended := served.ended
        cases pkt with
        | value cid =>
          refine ⟨?_, hellos, served.successor, fun _ => ⟨noPkts, notShutted⟩, ?_, ended⟩
          · simp [take, shutting, closes]
          · intro shutted
            rw [take, notShutted] at shutted
            cases shutted
        | close =>
          refine ⟨?_, hellos, served.successor, ?_, ?_, ended⟩
          · simp [take, closes]
          · intro notShutting
            cases notShutting
          · intro shutted
            rw [take, notShutted] at shutted
            cases shutted
    | true =>
      cases pkt with
      | close =>
        apply absurd _ keeps
        simp only [Loses, isEntry, shutting]
      | value cid =>
        rw [route_data_of_shutting isEntry shutting]
        refine ⟨ok.running, ?_, ok.own, writes, ?_, fun noClient => absurd rfl (noClient _ _)⟩
        · rw [← conserved, List.append_assoc]
          rfl
        · rintro _ _ ⟨⟩
          exact ⟨served.byes, served.hellos, served.successor,
            fun notShutting => by simp [shutting] at notShutting, served.written, served.ended⟩
  | _ =>
    rw [route_of_no_client (by simp [isEntry])]
    rw [isEntry] at writes
    refine ⟨ok.running, ?_, ok.own, writes, ?_, ?_⟩
    · rw [← conserved, List.append_assoc]
      rfl
    · rintro _ _ ⟨⟩
    · exact fun _ => ok.vacant (by simp [isEntry])

theorem hello_faithful (keeps : ¬reg.Loses .hello) : Faithful reg.hello := by
  have writes := ok.writes
  cases isEntry : reg.entry with
  | client client succ =>
    have served := ok.served client succ isEntry
    cases succ with
    | some next =>
      apply absurd _ keeps
      simp only [Loses, isEntry]
    | none =>
      have hellos := served.hellos
      have conserved := ok.conserved
      rw [isEntry] at conserved writes
      simp only [hello, isEntry]
      refine ⟨ok.running, conserved, ok.own, writes, ?_, fun noClient => absurd rfl (noClient _ _)⟩
      rintro _ _ ⟨⟩
      refine ⟨served.byes, ?_, ?_, served.upToDate, served.written, served.ended⟩
      · simp only [hellos]
        simp
      · rintro _ ⟨⟩
        exact hellos
  | _ =>
    have noClient : ∀ client succ, reg.entry ≠ .client client succ := by
      simp [isEntry]
    obtain ⟨turn, ended⟩ := ok.vacant noClient
    rw [hello_of_no_client noClient]
    rw [isEntry, pending, List.append_nil] at writes
    · exact register_faithful ok.running ok.conserved ok.own writes turn rfl ended
    · simp

theorem onSentP2cData_faithful (isEntry : reg.entry = .client client succ) {cid rest}
    (pending : client.unconsumed = cid :: rest) :
    Faithful (reg.onSentP2cData client succ cid rest) := by
  have served := ok.served client succ isEntry
  have conserved := ok.conserved
  have writes := ok.writes
  rw [isEntry] at conserved writes
  rw [Entry.pending, pending] at writes
  have notShutted : client.p2cShutted = true → rest = [] := by
    intro shutted
    have := served.written shutted
    simp [pending] at this
  unfold onSentP2cData
  dsimp only
  split_ifs
  all_goals
    refine ⟨ok.running, conserved, ok.own, ?_, ?_,
      fun noClient => absurd rfl (noClient _ _)⟩
    · simpa [Entry.pending] using writes
    · rintro _ _ ⟨⟩
      exact ⟨served.byes, served.hellos, served.successor, served.upToDate, notShutted,
        served.ended⟩

theorem onShutdownP2c_faithful (isEntry : reg.entry = .client client succ)
    (shutting : client.p2cShutting) (notYet : client.p2cShutted = false)
    (done : client.unconsumed = []) : Faithful (reg.onShutdownP2c client succ) := by
  have served := ok.served client succ isEntry
  have conserved := ok.conserved
  have writes := ok.writes
  have ended := served.ended
  rw [isEntry] at conserved writes
  rw [notYet, toNat_false, add_zero] at ended
  apply maybeClose_faithful
  refine ⟨ok.running, conserved, ok.own, writes, ?_, fun noClient => absurd rfl (noClient _ _)⟩
  rintro _ _ ⟨⟩
  refine ⟨served.byes, served.hellos, served.successor, ?_, fun _ => done, ?_⟩
  · intro notShutting
    simp [shutting] at notShutting
  · simp only [ended]
    exact List.range_succ.symm

theorem faithful_of_moved (keeps : ¬reg.Loses event) (moved : Moved reg event after) :
    Faithful after := by
  cases moved with
  | arrive pkt => exact route_faithful ok pkt keeps
  | hello => exact hello_faithful ok keeps
  | @shutdownC2p client succ isEntry =>
    unfold shutdownC2p
    split_ifs
    · exact maybeClose_faithful (ok.replace isEntry rfl rfl rfl rfl rfl)
    · exact ok.replace isEntry rfl rfl rfl rfl rfl
  | sentBye isEntry =>
    exact maybeClose_faithful (ok.replace isEntry rfl rfl rfl rfl rfl)
  | sentAck isEntry =>
    exact maybeClose_faithful (ok.replace isEntry rfl rfl rfl rfl rfl)
  | sentData isEntry pending => exact onSentP2cData_faithful ok isEntry pending
  | shutP2c isEntry shutting notYet done =>
    exact onShutdownP2c_faithful ok isEntry shutting notYet done

theorem faithful_of_lossFree {events} (lossFree : LossFree reg events)
    (run : events.foldlM Registry.step reg = some after) : Faithful after := by
  induction events generalizing reg with
  | nil =>
    cases run
    exact ok
  | cons event rest ih =>
    obtain ⟨mid, first, others⟩ := bind_eq_some_iff.mp run
    have kept := faithful_of_moved ok lossFree.1 (moved_of_step first).2
    exact ih kept (lossFree.2 mid first) others

end

theorem run_balance {events} (run : events.foldlM Registry.step reg = some after) :
    after.kept + reg.arrived.length ≤ reg.kept + after.arrived.length ∧
      (¬LossFree reg events → after.failed = true ∨
        after.kept + reg.arrived.length < reg.kept + after.arrived.length) := by
  induction events generalizing reg with
  | nil =>
    cases run
    exact ⟨le_rfl, fun lossy => absurd trivial lossy⟩
  | cons event rest ih =>
    obtain ⟨mid, first, others⟩ := bind_eq_some_iff.mp run
    obtain ⟨_, oneLoses⟩ := step_balance (moved_of_step first).2
    obtain ⟨_, moreLoses⟩ := ih others
    refine ⟨by omega, fun lossy => ?_⟩
    by_cases loses : reg.Loses event
    · rcases oneLoses loses with failed | behind
      · -- Nothing follows an error.
        cases rest with
        | nil =>
          cases others
          exact .inl failed
        | cons next rest =>
          obtain ⟨_, snd, _⟩ := bind_eq_some_iff.mp others
          have := (moved_of_step snd).1
          simp [failed] at this
      · exact .inr (by omega)
    · have later : ¬LossFree mid rest := by
        intro lossFree
        apply lossy
        refine ⟨loses, fun other isOther => ?_⟩
        rw [first] at isOther
        cases isOther
        exact lossFree
      rcases moreLoses later with failed | behind
      · exact .inl failed
      · exact .inr (by omega)

/-! ### Delivery of the streams -/

def Entry.Serves (entry : Entry α) (incarnation : Nat) : Prop :=
  ∃ client successor, entry = .client client successor ∧
    (client.incarnation = incarnation ∨ successor = some incarnation)

/-- The streams of the remote incarnations reach the local ones. -/
structure Delivers (streams : List (List α)) (registry : Registry α) : Prop where
  running : registry.failed = false
  /-- Nothing is dropped or duplicated, and nothing overtakes. -/
  conserved : registry.takenPkts ++ registry.entry.cached = registry.arrived
  /-- Every packet is taken by the incarnation that it was sent for. -/
  own : registry.taken = numbered 0 registry.takenPkts
  /-- A backend has got contents of its own stream, in order and from the start. -/
  inOrder : ∀ incarnation stream, streams[incarnation]? = some stream →
    valuesAt incarnation registry.written <+: stream
  /-- A backend that saw the end has got its whole stream, and its BYE was taken. -/
  atEnd : ∀ incarnation ∈ registry.ended,
    streams[incarnation]? = some (valuesAt incarnation registry.written) ∧
      incarnation < closes registry.takenPkts
  /-- An incarnation is gone only after its end of stream. -/
  noneMissed : ∀ incarnation < registry.hellos,
    incarnation ∈ registry.ended ∨ registry.entry.Serves incarnation
  /-- A client that has not taken its BYE has taken all that arrived. -/
  upToDate : ∀ client successor, registry.entry = .client client successor →
    client.p2cShutting = false → registry.takenPkts = registry.arrived

section

variable {streams : List (List α)}

theorem Faithful.ended_eq (ok : Faithful reg) :
    ∃ count ≤ closes reg.takenPkts, reg.ended = List.range count ∧
      (∀ turn < count, ∀ pair ∈ reg.entry.pending, pair.1 ≠ turn) ∧
      ∀ turn < reg.hellos, turn < count ∨ reg.entry.Serves turn := by
  cases isEntry : reg.entry with
  | client client succ =>
    have served := ok.served client succ isEntry
    refine ⟨_, ?_, served.ended, ?_, ?_⟩
    · rw [← served.byes]
      cases shutting : client.p2cShutting with
      | false => rw [(served.upToDate shutting).2]
      | true => exact Nat.add_le_add_left (toNat_le _) _
    · intro turn pre pair mem
      rw [pending, List.mem_map] at mem
      obtain ⟨_, isContent, rfl⟩ := mem
      cases shutted : client.p2cShutted with
      | false =>
        rw [shutted, toNat_false] at pre
        exact (ne_of_lt pre).symm
      | true =>
        rw [served.written shutted] at isContent
        cases isContent
    · intro turn pre
      have hellos := served.hellos
      cases succ with
      | none =>
        simp only [isSome_none, toNat_false] at hellos
        by_cases same : client.incarnation = turn
        · exact .inr ⟨client, none, rfl, .inl same⟩
        · exact .inl (by omega)
      | some next =>
        have := served.successor next rfl
        simp only [isSome_some, toNat_true] at hellos
        by_cases same : client.incarnation = turn
        · exact .inr ⟨client, some next, rfl, .inl same⟩
        · by_cases waiting : next = turn
          · exact .inr ⟨client, some next, rfl, .inr (by rw [waiting])⟩
          · exact .inl (by omega)
  | _ =>
    obtain ⟨hellos, ended⟩ := ok.vacant (by simp [isEntry])
    exact ⟨reg.hellos, hellos.le, ended, by simp [pending], fun _ pre => .inl pre⟩

theorem delivers_of_faithful (ok : Faithful reg)
    (wire : reg.arrived <+: sections streams) : Delivers streams reg := by
  obtain ⟨_, countLe, ended, notPending, gone⟩ := ok.ended_eq
  have part : reg.takenPkts <+: sections streams := by
    rw [← ok.conserved] at wire
    exact (List.prefix_append _ _).trans wire
  have writes := ok.writes
  rw [ok.own] at writes
  have split (turn) : valuesAt turn reg.written ++ valuesAt turn reg.entry.pending =
        valuesAt turn (numberedValues (numbered 0 reg.takenPkts)) := by
    rw [← valuesAt_append, writes]
  refine ⟨ok.running, ok.conserved, ok.own, ?_, ?_, ?_, ?_⟩
  · intro turn _ isStream
    have all := (valuesAt_of_isPrefix part isStream).1
    rw [← split] at all
    exact (List.prefix_append _ _).trans all
  · intro turn isEnded
    rw [ended, List.mem_range] at isEnded
    have pre : turn < closes reg.takenPkts := isEnded.trans_le countLe
    refine ⟨?_, pre⟩
    have lt := pre.trans_le (closes_le_of_isPrefix part)
    have isStream := List.getElem?_eq_getElem lt
    have all := (valuesAt_of_isPrefix part isStream).2 pre
    have nothing : valuesAt turn reg.entry.pending = [] := by
      simp only [valuesAt, List.map_eq_nil_iff, List.filter_eq_nil_iff, beq_iff_eq]
      exact notPending turn isEnded
    rw [← split, nothing, List.append_nil] at all
    rw [all, isStream]
  · intro turn pre
    rw [ended, List.mem_range]
    exact gone turn pre
  · intro client succ isEntry notShutting
    have conserved := ok.conserved
    rw [isEntry, cached, ((ok.served client succ isEntry).upToDate notShutting).1,
      List.append_nil] at conserved
    exact conserved

end

/-- The streams are delivered exactly if the run has no loss: no BYE arrives for a client that is
shutting down already, and no incarnation begins while one is waiting. -/
theorem delivers_iff_lossFree (streams : List (List α)) (events : List (ClientEvent α))
    (registry : Registry α) (run : events.foldlM Registry.step .start = some registry)
    (wire : registry.arrived <+: sections streams) :
    Delivers streams registry ↔ LossFree .start events := by
  constructor
  · intro delivers
    by_contra lossy
    rcases (run_balance run).2 lossy with failed | behind
    · rw [delivers.running] at failed
      cases failed
    · have lengths := congrArg List.length delivers.conserved
      rw [List.length_append, takenPkts, List.length_map] at lengths
      have nothing : (start : Registry α).kept = 0 := rfl
      rw [kept] at behind
      omega
  · intro lossFree
    have start : Faithful (.start : Registry α) :=
      ⟨rfl, rfl, rfl, rfl, by rintro _ _ ⟨⟩, fun _ => ⟨rfl, rfl⟩⟩
    exact delivers_of_faithful (faithful_of_lossFree start lossFree run) wire

def handover : List (ClientEvent Nat) :=
  [.hello, .arrive (.data 7), .arrive .bye, .hello, .sentData, .shutP2c, .shutdownC2p, .sentBye]

def afterHandover : Registry Nat where
  entry := .client (.new 1) none
  hellos := 2
  failed := false
  arrived := [.data 7, .bye]
  taken := [(0, .data 7), (0, .bye)]
  written := [(0, 7)]
  ended := [0]

theorem delivers_iff_lossFree_handover : Delivers [[7]] afterHandover ↔ LossFree .start handover :=
  delivers_iff_lossFree [[7]] handover afterHandover (by decide) ⟨[], rfl⟩

/-- The first client has sent its BYE and has got the one of its peer, and all of the second
incarnation arrives before the backend sees the end of the stream. -/
def earlyBye : List (ClientEvent Nat) :=
  [.hello, .shutdownC2p, .sentBye, .arrive .bye, .arrive (.data 7), .arrive .bye, .shutP2c, .hello]

/-- All has arrived and the second incarnation has got its packet, but its BYE is gone, and it
never sees the end of its stream. -/
theorem delivers_fails : ∃ registry, earlyBye.foldlM Registry.step .start = some registry ∧
    registry.arrived = sections [[], [7]] ∧ registry.entry.Serves 1 ∧
    registry.taken = [(0, .bye), (1, .data 7)] ∧ registry.entry.cached = [] ∧
    ¬Delivers [[], [7]] registry := by
  refine ⟨_, rfl, rfl, ⟨_, _, rfl, .inl rfl⟩, rfl, rfl, fun delivers => ?_⟩
  have lengths := congrArg List.length delivers.conserved
  revert lengths
  decide

end Greengage.Proxy
