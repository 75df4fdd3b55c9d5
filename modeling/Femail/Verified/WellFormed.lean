import Femail.Verified.Availability
import Femail.Verified.Buffer

/-! # Queued connections are well formed

The five services share one record, one enumeration of states and one reset.
`WellFormed` says which combinations wait in the queue; from it follows which branches of
the handlers are never taken.
-/

namespace Femail

open Foundation

structure WellFormed (conn : Connection) : Prop where
  live : conn.live = true
  http : conn.type = .http ∨ conn.type = .https ↔ conn.state = .httpOpened
  opened : conn.type = .smtps ∨ conn.type = .starttls → conn.state = .mailOpened
  implicit : conn.sslstrat = .implicitTls → conn.sslconn ≠ none
  negotiating : conn.state = .mailExpectTlsNeg → conn.sslconn ≠ none
  noBuffer : conn.state ≠ .mailExpectData →
    conn.messagebuffer = none ∧ conn.alloccount = 0 ∧ conn.messagebufferend = 0

/-! ## The results of the handlers -/

theorem httpHandleRead_result (t : Turn) (conn : Connection) (response : Event) :
    (httpHandleRead t conn response).result ≠ .reset := by
  intro reset
  unfold httpHandleRead at reset
  cases got : t.recv with
  | eof =>
    rw [got] at reset
    cases reset
  | fail | data =>
    rw [got] at reset
    dsimp only at reset
    split at reset <;> cases reset

/-- Only SMTP asks for a reset. -/
theorem smtp_of_reset {g : Globals} {t : Turn} {conn : Connection}
    (reset : (connectionHandler g t conn).result = .reset) : conn.type = .smtp := by
  unfold connectionHandler at reset
  cases type : conn.type with
  | smtp => rfl
  | smtps =>
    rw [type] at reset
    dsimp only [smtpsHandler] at reset
    split at reset
    · cases reset
    · split at reset <;> cases reset
  | starttls =>
    rw [type] at reset
    dsimp only [starttlsHandler] at reset
    split at reset <;> cases reset
  | http =>
    rw [type] at reset
    dsimp only [httpHandler] at reset
    split at reset
    · cases reset
    · exact absurd reset (httpHandleRead_result t conn _)
  | https =>
    rw [type] at reset
    dsimp only [httpsHandler] at reset
    split at reset
    · cases reset
    · split at reset
      · cases reset
      · exact absurd reset (httpHandleRead_result t conn _)

/-- A live connection is not handled without a call. -/
theorem events_ne_nil_of_live (g : Globals) (t : Turn) {conn : Connection}
    (live : conn.live = true) : (connectionHandler g t conn).events ≠ [] := by
  have sends : ∀ conn reply, smtpSendMsg g t conn reply ≠ [] := by
    intro conn reply nothing
    have replied := replies_smtpSendMsg g t conn reply
    rw [nothing] at replied
    cases replied
  unfold connectionHandler
  cases conn.type with
  | smtp =>
    dsimp only
    have step := smtpHandler_step g t conn
    generalize smtpHandler g t conn = handled at step ⊢
    cases step with
    | dead dead =>
      rw [live] at dead
      cases dead
    | opened => exact sends _ _
    | _ => exact List.cons_ne_nil _ _
  | smtps =>
    simp only [smtpsHandler, live, Bool.not_true, Bool.false_eq_true, if_false]
    split <;> exact List.cons_ne_nil _ _
  | starttls =>
    dsimp only [starttlsHandler]
    rw [live]
    exact sends _ _
  | http =>
    dsimp only [httpHandler]
    rw [live]
    exact List.cons_ne_nil _ _
  | https =>
    simp only [httpsHandler, live, Bool.not_true, Bool.false_eq_true, if_false]
    split <;> exact List.cons_ne_nil _ _

/-! ## Accepting and serving -/

theorem wellFormed_accepted {srv : Server} (ctx : srv.sslctx ≠ none) {a : AcceptTurn}
    (given : a.sslNew ≠ none) (type : ConnectionType) :
    WellFormed (acceptedConnection srv.toGlobals a type (srv.strategy type)) := by
  have state := state_acceptedConnection srv.toGlobals a type (srv.strategy type)
  refine ⟨by simp, ?_, ?_, ?_, ?_, fun _ => ⟨rfl, rfl, rfl⟩⟩
  · rw [state, type_acceptedConnection]
    cases type <;> decide
  · rw [state, type_acceptedConnection]
    cases type <;> decide
  · intro implicit
    rw [sslstrat_acceptedConnection] at implicit
    rw [sslconn_acceptedConnection, if_pos implicit]
    exact sslNewResult_ne_none ctx given
  · intro negotiating
    rw [state] at negotiating
    cases type <;> cases negotiating

section

variable {g : Globals} {t : Turn} {conn conn' : Connection}

/-- Outside the data phase a record that goes back has no message. -/
theorem noBuffer_serve (wellFormed : WellFormed conn) (smtp : conn.type = .smtp)
    (kept : (serveConnection g t conn).1 = some conn') (other : conn'.state ≠ .mailExpectData) :
    conn'.messagebuffer = none ∧ conn'.alloccount = 0 ∧ conn'.messagebufferend = 0 := by
  have handler := connectionHandler_smtp g t smtp
  obtain ⟨continues, rfl⟩ | ⟨-, rfl⟩ := serveConnection_of_kept kept
  · rw [handler] at continues other ⊢
    by_cases data : conn.state = .mailExpectData
    · -- a turn of the data phase that only goes on stays in it
      have step := smtpHandler_dataStep g t wellFormed.live data
      generalize smtpHandler g t conn = handled at step continues other ⊢
      cases step with
      | tooLarge | noMemory | ends => cases continues
      | noData | more => exact absurd data other
    · obtain ⟨count, size, block⟩ := buffer_smtpHandler g t data
      obtain ⟨none', zero, empty⟩ := wellFormed.noBuffer data
      exact ⟨block.trans none', count.trans zero, size.trans empty⟩
  · exact ⟨rfl, rfl, rfl⟩

/-- The SSL object of a record that goes back. -/
theorem sslconn_serve (ctx : g.sslctx ≠ none) (given : t.sslNew ≠ none)
    (wellFormed : WellFormed conn) (kept : (serveConnection g t conn).1 = some conn') :
    (conn'.sslstrat = .implicitTls → conn'.sslconn ≠ none) ∧
      (conn'.state = .mailExpectTlsNeg → conn'.sslconn ≠ none) := by
  obtain ⟨-, -, -, strat, ssl⟩ := serveConnection_keeps wellFormed.live kept
  rw [strat, ssl]
  obtain keeps | upgrades := (footprint_connectionHandler g t conn).tls
  · rw [keeps.sslconn]
    refine ⟨wellFormed.implicit, ?_⟩
    intro negotiating
    refine wellFormed.negotiating (keeps.negotiating ?_)
    obtain ⟨-, rfl⟩ | ⟨-, rfl⟩ := serveConnection_of_kept kept
    · exact negotiating
    · -- a reset leaves no negotiation behind
      simp only [resetConnection] at negotiating
      split at negotiating <;> cases negotiating
  · have object := sslNewResult_ne_none ctx given
    rw [upgrades.sslconn]
    exact ⟨fun _ => object, fun _ => object⟩

theorem WellFormed.serve (ctx : g.sslctx ≠ none) (given : t.sslNew ≠ none)
    (wellFormed : WellFormed conn) (kept : (serveConnection g t conn).1 = some conn') :
    WellFormed conn' := by
  obtain ⟨live, type, -⟩ := serveConnection_keeps wellFormed.live kept
  obtain ⟨implicit, negotiating⟩ := sslconn_serve ctx given wellFormed kept
  by_cases smtp : conn.type = .smtp
  · have mail : conn.state ≠ .httpOpened := by
      intro http
      have kind := wellFormed.http.mpr http
      simp [smtp] at kind
    have step := serveConnection_dialogue g t smtp wellFormed.live
    rw [kept] at step
    have mail' := step.ne_httpOpened mail
    refine ⟨live, ?_, ?_, implicit, negotiating, noBuffer_serve wellFormed smtp kept⟩
    · simp [type, smtp, mail']
    · simp [type, smtp]
  · -- the others come back as they were, and only those of HTTP
    have same := connectionHandler_conn g t smtp
    obtain ⟨-, rfl⟩ | ⟨reset, -⟩ := serveConnection_of_kept kept
    · refine ⟨live, ?_, ?_, implicit, negotiating, ?_⟩
      · rw [same]
        exact wellFormed.http
      · rw [same]
        exact wellFormed.opened
      · rw [same]
        exact wellFormed.noBuffer
    · exact absurd (smtp_of_reset reset) smtp

end

/-! ## Runs -/

/-- `SSL_new` has an object to give. -/
def sslNewGiven : MasterHistory → ConnectionQueue → MasterInput → Prop
  | _, _, .accept _ a => a.sslNew ≠ none
  | _, _, .process p => p.turn.sslNew ≠ none

instance : ∀ h queue input, Decidable (sslNewGiven h queue input)
  | _, _, .accept _ _ => inferInstanceAs (Decidable (_ ≠ _))
  | _, _, .process _ => inferInstanceAs (Decidable (_ ≠ _))

/-- **Queued connections are well formed** in every run with a TLS context in which
    `SSL_new` succeeds, whatever the mutex calls do.  So no handler is given a dead
    connection and takes the branch for one, only connections of SMTP are reset, and
    `smtp_handler` is given none in the state of HTTP. -/
theorem queued_wellFormed {srv : Server} (ctx : srv.sslctx ≠ none) {h : MasterHistory}
    {queue : ConnectionQueue}
    (reaches : (master srv).Reaches (· = connQueueInit) sslNewGiven h queue) :
    (∀ conn ∈ queue.contents, WellFormed conn) ∧
    ∀ t conn, queue.contents.head? = some conn →
      let handled := connectionHandler srv.toGlobals t conn
      (conn.live = true ∧ handled ≠ ⟨.done, conn, []⟩) ∧
      (handled.result = .reset → handled.conn.type = .smtp) ∧
      (conn.type = .smtp → conn.state ≠ .httpOpened) := by
  have wellFormed : ∀ conn ∈ queue.contents, WellFormed conn := by
    refine (queued_invariant WellFormed ?_ ?_ reaches).2
    · intro _ _ type a given _
      exact wellFormed_accepted ctx given type
    · intro _ _ p conn conn' given _ holds kept
      exact holds.serve ctx given kept
  refine ⟨wellFormed, ?_⟩
  intro t conn first handled
  have holds := wellFormed conn (List.mem_of_mem_head? first)
  refine ⟨⟨holds.live, ?_⟩, ?_, ?_⟩
  · intro dead
    exact events_ne_nil_of_live srv.toGlobals t holds.live (congrArg Handled.events dead)
  · intro reset
    rw [(footprint_connectionHandler srv.toGlobals t conn).type]
    exact smtp_of_reset reset
  · intro smtp http
    have kind := holds.http.mpr http
    simp [smtp] at kind

theorem queued_wellFormed_starttls :
    let last := (master (serverWith (some 1))).trace [] connQueueInit starttlsInputs
    ∃ conn ∈ last.2.contents, conn.state = .mailExpectTlsNeg ∧ conn.sslconn ≠ none ∧
      conn.messagebuffer = none := by
  intro last
  have admitted : (master (serverWith (some 1))).Admits sslNewGiven [] connQueueInit
      starttlsInputs := by
    decide +kernel
  have idle : (master (serverWith (some 1))).Reaches (· = connQueueInit) sslNewGiven [] connQueueInit :=
    .start rfl
  have formed : ∀ conn ∈ last.2.contents, WellFormed conn :=
    (queued_wellFormed (by decide) (idle.trace _ admitted)).1
  have waits : ∃ conn ∈ last.2.contents, conn.state = .mailExpectTlsNeg := by decide +kernel
  obtain ⟨conn, mem, negotiating⟩ := waits
  have holds := formed conn mem
  have outside : conn.state ≠ .mailExpectData := by
    rw [negotiating]
    decide
  exact ⟨conn, mem, negotiating, holds.negotiating negotiating, (holds.noBuffer outside).1⟩

end Femail
