import Greengage.Foundations.Results
import Greengage.Fts.Pairs

/-!
Contract: what the bodies of the main loop do to the connection of a pair.

A connection stays with one message of one pair until it is closed, a message goes out
only over a connection that has been idle, and a pair has an answer in sync only by
receiving one.
-/

namespace Greengage.Fts

open Option SegmentInfo Except

open Foundations (bind_eq_ok map_eq_ok)

/-- What a body does to the connection of its pair, to the messages and to an answer. -/
structure Follows (info after : SegmentInfo) (fresh : Nat) (sent : List Message)
    (outcome : Outcome) : Prop where
  conn : ∀ conn, after.conn = some conn →
    (∃ before, info.conn = some before ∧ conn.number = before.number ∧
      (before.idle = false → conn.idle = false) ∧ after.primary = info.primary ∧
      after.state.type = info.state.type) ∨
    conn.number = fresh
  sent : ∀ message ∈ sent, ∃ before, info.conn = some before ∧
    message.connection = before.number ∧ message.dbid = info.primary.dbid ∧
    info.state.type = some message.type ∧ after.state.type = info.state.type ∧
    after.primary = info.primary ∧ after.conn = some { before with idle := false }
  answered : after.state = .success .probe → after.result.isInSync = true →
    after.primary = info.primary ∧ (info.state = .success .probe ∧ info.result.isInSync = true ∨
        ∃ response, outcome = .receive (.response response) ∧ response.isInSync = true ∧
          info.state = .segment .probe)

section

variable {info after : SegmentInfo} {fresh : Nat} {out : Outcome}

theorem Follows.of_kept (kept : Kept info after) (conn : after.conn = info.conn)
    (state : after.state = .success .probe → info.state = .success .probe)
    (res : after.result = info.result) : Follows info after fresh [] out where
  conn connection is := .inl ⟨connection, conn ▸ is, rfl, id, kept.primary, kept.type⟩
  sent := nofun
  answered success inSync := ⟨kept.primary, .inl ⟨state success, res ▸ inSync⟩⟩

theorem Follows.of_closed (conn : after.conn = none) (res : after.result.isInSync = false) :
    Follows info after fresh [] out where
  conn := by simp [conn]
  sent := nofun
  answered _ inSync := by simp [res] at inSync

theorem Follows.of_unanswered (unanswered : after.state ≠ .success .probe)
    (conn : ∀ conn, after.conn = some conn →
      (∃ pre, info.conn = some pre ∧ conn.number = pre.number ∧
        (pre.idle = false → conn.idle = false) ∧ after.primary = info.primary ∧
        after.state.type = info.state.type) ∨
      conn.number = fresh) : Follows info after fresh [] out :=
  ⟨conn, nofun, fun success => absurd success unanswered⟩

theorem fail_eq (failed : info.fail = .ok after) :
    ∃ type, info.state.type = some type ∧ after = { info with state := .failed type } := by
  cases state : info.state <;>
    simp [fail, state, nextFailedState, bind, Except.bind, pure, Except.pure] at failed
  all_goals exact ⟨_, rfl, failed.symm⟩

theorem Follows.fail (failed : info.fail = .ok after) : Follows info after fresh [] out := by
  obtain ⟨_, pre, rfl⟩ := fail_eq failed
  exact .of_kept ⟨rfl, rfl, pre.symm⟩ rfl nofun rfl

theorem Follows.fail_after {mid} (follows : Follows info mid fresh [] out)
    (failed : mid.fail = .ok after) : Follows info after fresh [] out := by
  obtain ⟨_, pre, rfl⟩ := fail_eq failed
  refine .of_unanswered nofun fun conn connected => ?_
  rcases follows.conn conn connected with ⟨old, is, num, idle, prim, same⟩ | new
  · exact .inl ⟨old, is, num, idle, prim, pre.symm.trans same⟩
  · exact .inr new

variable {type : MessageType}

theorem ftsConnectStart_follows (state : info.state = .segment type) {started}
    (run : info.ftsConnectStart fresh started = .ok after) :
    Follows info after fresh [] out := by
  cases started with
  | true =>
    cases run
    refine .of_unanswered (by simp [state]) fun conn connected => .inr ?_
    exact (some.inj connected) ▸ rfl
  | false =>
    obtain ⟨_, _, rfl⟩ := fail_eq run
    refine .of_unanswered nofun fun conn connected => .inr ?_
    exact (some.inj connected) ▸ rfl

variable {poll : ConnectPoll}

theorem ftsConnectPoll_follows (state : info.state = .segment type) {conn}
    (connected : info.conn = some conn) (run : info.ftsConnectPoll conn poll = .ok after) :
    Follows info after fresh [] out := by
  cases poll with
  | ok =>
    cases run
    refine .of_unanswered (by simp [state]) fun conn' same => .inl ⟨conn, connected, ?_⟩
    cases same
    exact ⟨rfl, id, rfl, rfl⟩
  | reading =>
    cases run
    exact .of_kept ⟨rfl, rfl, rfl⟩ rfl id rfl
  | writing =>
    cases run
    exact .of_kept ⟨rfl, rfl, rfl⟩ rfl id rfl
  | failed msg =>
    simp only [ftsConnectPoll, bind, Except.bind] at run
    split at run
    · simp at run
    next mid failed =>
      obtain ⟨_, busy, same⟩ := fail_eq failed
      obtain ⟨_, _, restarted⟩ :=
        PairOk.checkIfFailedDueToNormalRestart_eq mid msg
      rw [restarted, same] at run
      cases run
      refine .of_unanswered (by simp) fun conn' same => .inl ⟨conn, connected, ?_⟩
      cases same
      exact ⟨rfl, id, rfl, busy.symm⟩

theorem Follows.of_restarted (restartState)
    (follows : Follows { info with restartState } after fresh [] out) :
    Follows info after fresh [] out :=
  ⟨follows.conn, follows.sent, follows.answered⟩

theorem ftsConnect_follows {started} (run : info.ftsConnect fresh started poll = .ok after) :
    Follows info after fresh [] out := by
  have same : Follows info info fresh [] out := .of_kept (.refl info) rfl id rfl
  by_cases connected : info.connected = true
  · simp only [ftsConnect, connected] at run
    exact ok.inj run ▸ same
  cases state : info.state with
  | segment type =>
    cases connection : info.conn with
    | none =>
      have start : { info with restartState := .notInRestart }.ftsConnectStart fresh started =
          .ok after := by
        simpa [ftsConnect, connected, state, connection] using run
      exact .of_restarted .notInRestart (ftsConnectStart_follows state start)
    | some conn =>
      by_cases ready : (info.pollRevents.pollout || info.pollRevents.pollin) = true
      · have polled : { info with restartState := .notInRestart }.ftsConnectPoll conn poll =
            .ok after := by
          simpa only [ftsConnect, connected, state, connection, ready,
            Bool.false_eq_true, ↓reduceIte] using run
        exact .of_restarted .notInRestart (ftsConnectPoll_follows state connection polled)
      · simp only [ftsConnect, connected, state, connection, ready] at run
        cases run
        exact .of_kept ⟨rfl, rfl, by rw [state]⟩ connection.symm (by simp) rfl
  | _ =>
    simp only [ftsConnect, connected, state] at run
    exact ok.inj run ▸ same

theorem ftsPollReady_follows (run : info.ftsPollReady = .ok after) :
    Follows info after fresh [] out := by
  simp only [ftsPollReady] at run
  split at run
  · cases run
    exact .of_kept ⟨rfl, rfl, rfl⟩ rfl id rfl
  split at run
  · exact .fail run
  split at run
  · exact .fail run
  · exact ok.inj run ▸ .of_kept (.refl info) rfl id rfl

theorem ftsPoll_follows {revents timedOut} (run : info.ftsPoll revents timedOut = .ok after) :
    Follows info after fresh [] out := by
  simp only [ftsPoll, bind, Except.bind] at run
  split at run
  · split at run
    · simp at run
    next mid polled =>
      have first : Follows info mid fresh [] out := by
        have polled : Follows _ mid fresh [] out := ftsPollReady_follows polled
        exact ⟨polled.conn, polled.sent, polled.answered⟩
      simp only [ftsCheckTimeout] at run
      split at run
      · exact first.fail_after run
      · exact ok.inj run ▸ first
  · exact ok.inj run ▸ .of_kept (.refl info) rfl id rfl

theorem ftsSend_follows {sent messages} (run : info.ftsSend sent = .ok (after, messages)) :
    Follows info after fresh messages out := by
  have unchanged : Follows info info fresh [] out := .of_kept (.refl info) rfl id rfl
  unfold ftsSend at run
  split at run
  next type conn state connected =>
    split at run
    · cases run
      exact unchanged
    split at run
    · cases run
      refine ⟨fun conn' same => .inl ⟨conn, connected, ?_⟩, fun msg mem => ?_, ?_⟩
      · cases same
        exact ⟨rfl, fun _ => rfl, rfl, rfl⟩
      · obtain rfl := List.mem_singleton.mp mem
        exact ⟨conn, connected, rfl, rfl, by rw [state]; rfl, rfl, rfl, rfl⟩
      · intro success
        simp [state] at success
    · simp only [bind, Except.bind] at run
      split at run
      · simp at run
      next failed =>
        cases run
        exact .fail failed
  · cases run
    exact unchanged

theorem ftsReceive_follows {recv} (run : info.ftsReceive recv = .ok after) :
    Follows info after fresh [] (.receive recv) := by
  have unchanged : Follows info info fresh [] (.receive recv) :=
    .of_kept (.refl info) rfl id rfl
  unfold ftsReceive at run
  split at run
  next type state =>
    split at run
    · exact ok.inj run ▸ unchanged
    cases recv with
    | failed => exact .fail run
    | busy => exact ok.inj run ▸ unchanged
    | response resp =>
      simp only [state] at run
      cases run
      refine ⟨fun conn' same => .inl ⟨conn', same, rfl, id, rfl, by rw [state]; rfl⟩, nofun, ?_⟩
      intro success inSync
      obtain rfl : type = .probe := by simpa using success
      exact ⟨rfl, .inr ⟨resp, rfl, inSync, state⟩⟩
  · exact ok.inj run ▸ unchanged

theorem retryForFtsFailed_follows (retries : Nat) :
    Follows info (info.retryForFtsFailed retries) fresh [] out := by
  simp only [retryForFtsFailed]
  split
  · exact .of_kept (.refl info) rfl id rfl
  · exact .of_closed rfl rfl

theorem processRetry_follows (retries : Nat) (hasMirrors waited : Bool) :
    Follows info (info.processRetry retries hasMirrors waited) fresh [] out := by
  have same : Follows info info fresh [] out := .of_kept (.refl info) rfl id rfl
  unfold processRetry
  split
  · split
    · exact retryForFtsFailed_follows retries
    · exact same
  · exact retryForFtsFailed_follows retries
  next type state =>
    split
    · exact .of_kept ⟨rfl, rfl, by rw [state]; rfl⟩ rfl nofun rfl
    · exact same
  · exact same

variable {catalog : List SegmentConfig} {hasMirrors : Bool}

theorem processResponse_follows {cat'}
    (run : info.processResponse catalog hasMirrors = .ok (cat', after)) :
    Follows info after fresh [] out := by
  simp only [processResponse] at run
  split at run
  · obtain ⟨_, rfl⟩ := Prod.mk.inj (ok.inj run)
    exact .of_kept (.refl info) rfl id rfl
  · split at run
    all_goals
      obtain ⟨processed, _, run⟩ := bind_eq_ok run
      obtain ⟨_, rfl⟩ := Prod.mk.inj (ok.inj run)
      exact .of_closed rfl rfl

theorem visit_follows {retries step visited}
    (run : info.visit retries fresh catalog hasMirrors step out = some (.ok visited)) :
    Follows info visited.info fresh visited.sent out := by
  cases step <;> cases out <;>
    simp only [visit, some.injEq, reduceCtorEq] at run
  case connect.connect =>
    obtain ⟨_, body, rfl⟩ := map_eq_ok run
    exact ftsConnect_follows body
  case poll.poll =>
    obtain ⟨_, body, rfl⟩ := map_eq_ok run
    exact ftsPoll_follows body
  case send.send =>
    obtain ⟨_, body, rfl⟩ := map_eq_ok run
    exact ftsSend_follows body
  case receive.receive =>
    obtain ⟨_, body, rfl⟩ := map_eq_ok run
    exact ftsReceive_follows body
  case retry.retry =>
    cases run
    exact processRetry_follows ..
  case response.response =>
    obtain ⟨_, body, rfl⟩ := map_eq_ok run
    exact processResponse_follows body

end

end Greengage.Fts
