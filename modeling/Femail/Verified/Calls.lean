import Femail.Verified.Dialogue

/-! # The calls of a turn

Of each kind of call that the outside answers, a turn makes one or none, and which it
makes is decided by the record and by what the calls before it return
(`makesCalls_serveConnection`).
-/

namespace Femail

open Foundation

/-- The turn calls `SSL_accept`. -/
def Connection.Negotiates (conn : Connection) : Prop :=
  conn.live = true ∧ (conn.type = .smtps ∨ conn.type = .https ∨
    conn.type = .smtp ∧ conn.state = .mailExpectTlsNeg)

/-- The turn reads from the client. -/
def Connection.Receives (t : Turn) (conn : Connection) : Prop :=
  conn.live = true ∧ (conn.type = .http ∨ conn.type = .https ∧ 0 < t.sslAccept ∨
    conn.type = .smtp ∧ conn.state ≠ .mailOpened ∧ conn.state ≠ .mailExpectTlsNeg)

instance (conn : Connection) : Decidable conn.Negotiates := inferInstanceAs (Decidable (_ ∧ _))

instance (t : Turn) (conn : Connection) : Decidable (conn.Receives t) :=
  inferInstanceAs (Decidable (_ ∧ _))

/-- The turn calls `realloc`. -/
def Connection.Allocates (t : Turn) (conn : Connection) : Prop :=
  conn.type = .smtp ∧ conn.live = true ∧ conn.state = .mailExpectData ∧ t.recv.bytes ≠ [] ∧
    conn.nextSize ≤ esmtpSize

/-- The turn calls `SSL_new`. -/
def Connection.Upgrades (t : Turn) (conn : Connection) : Prop :=
  conn.type = .smtp ∧ t.commandFor conn = some .starttls

/-- The calls that the outside answers. -/
inductive CallKind where
  | accept
  | read
  | memory
  | sslNew
deriving DecidableEq, Repr

def Event.call? : Event → Option CallKind
  | .sslAccept _ _ => some .accept
  | .read _ _ => some .read
  | .sslRead _ _ => some .read
  | .realloc _ _ _ => some .memory
  | .sslNew _ _ => some .sslNew
  | _ => none

/-- The calls made, in order. -/
def callKinds (events : List Event) : List CallKind := events.filterMap Event.call?

/-- The turn makes a call of the kind. -/
def Connection.Makes (t : Turn) (conn : Connection) : CallKind → Prop
  | .accept => conn.Negotiates
  | .read => conn.Receives t
  | .memory => conn.Allocates t
  | .sslNew => conn.Upgrades t

/-- Of each kind a turn makes one call or none. -/
def MakesCalls (t : Turn) (conn : Connection) (made : List CallKind) : Prop :=
  made.Nodup ∧ ∀ kind, kind ∈ made ↔ conn.Makes t kind

section

variable (g : Globals) (t : Turn) (conn : Connection)

@[simp] theorem callKinds_smtpSendMsg (reply : Reply) : callKinds (smtpSendMsg g t conn reply) = [] := by
  rw [smtpSendMsg_eq]
  cases conn.sslconn <;> rfl

@[simp] theorem callKinds_smtpReceiveMsg (events : List Event) :
    callKinds (smtpReceiveMsg t conn :: events) = .read :: callKinds events := by
  unfold smtpReceiveMsg
  cases conn.sslconn <;> rfl

@[simp] theorem callKinds_append (events events' : List Event) :
    callKinds (events ++ events') = callKinds events ++ callKinds events' := List.filterMap_append

theorem callKinds_serveConnection :
    callKinds (serveConnection g t conn).2 = callKinds (connectionHandler g t conn).events := by
  unfold serveConnection
  generalize connectionHandler g t conn = handled
  obtain ⟨result, left, events⟩ := handled
  cases result <;> simp [callKinds, settleConnection, resetConnection, connectionDeinit, Event.call?]

@[simp] theorem callKinds_nil : callKinds [] = [] := rfl

@[simp] theorem callKinds_sslAccept (ssl : Option Ssl) (ret : Int) (events : List Event) :
    callKinds (.sslAccept ssl ret :: events) = .accept :: callKinds events := rfl

@[simp] theorem callKinds_realloc (old new : Option Addr) (size : Nat) (events : List Event) :
    callKinds (.realloc old size new :: events) = .memory :: callKinds events := rfl

@[simp] theorem callKinds_parseClientCommand (buffer : List Byte) (verb : Option SMTPCommand)
    (events : List Event) :
    callKinds (.parseClientCommand buffer verb :: events) = callKinds events := rfl

@[simp] theorem callKinds_appendEvents (chunk : Chunk) (addr : Addr) :
    callKinds (appendEvents conn chunk addr) = [.memory] := rfl

@[simp] theorem callKinds_smtpHandleCommand (command : SMTPClientCommand) :
    callKinds (smtpHandleCommand g t conn command).events =
      if command.command = .starttls then [.sslNew] else [] := by
  have step := smtpHandleCommand_step g t conn command
  generalize smtpHandleCommand g t conn command = handled at step ⊢
  generalize command.command = verb at step ⊢
  cases step with
  | starttls =>
    rw [callKinds_append, callKinds_smtpSendMsg]
    rfl
  | unimplemented _ kind | helloTooLong _ _ kind => rcases kind with rfl | rfl <;> simp
  | hello _ _ _ kind => rcases kind with ⟨rfl, -⟩ | ⟨rfl, -⟩ <;> simp
  | _ => simp

theorem makesCalls_smtpHandler (smtp : conn.type = .smtp) :
    MakesCalls t conn (callKinds (smtpHandler g t conn).events) := by
  have upgrades : t.commandFor conn = some .starttls ↔
      some .starttls ∈ (observe (smtpHandler g t conn).events).parsed := by
    rw [commandFor_iff_parsed g smtp, observe_serveConnection, connectionHandler_smtp g t smtp]
  have makes : ∀ kind, conn.Makes t kind ↔
      match kind with
      | .accept => conn.live = true ∧ conn.state = .mailExpectTlsNeg
      | .read => conn.Reading
      | .memory => conn.live = true ∧ conn.state = .mailExpectData ∧ t.recv.bytes ≠ [] ∧
          conn.nextSize ≤ esmtpSize
      | .sslNew => some .starttls ∈ (observe (smtpHandler g t conn).events).parsed := by
    intro kind
    cases kind with
    | accept => simp [Connection.Makes, Connection.Negotiates, smtp]
    | read => simp [Connection.Makes, Connection.Receives, Connection.Reading, smtp]
    | memory => simp [Connection.Makes, Connection.Allocates, smtp]
    | sslNew => simp only [Connection.Makes, Connection.Upgrades, smtp, true_and, upgrades]
  have step := smtpHandler_step g t conn
  generalize smtpHandler g t conn = handled at step makes ⊢
  -- in each outcome the calls are at most a read and one more
  refine ⟨?_, fun kind => ?_⟩
  · cases step with
    | command => rw [callKinds_smtpReceiveMsg]; simp; split <;> decide
    | _ => simp
  · rw [makes kind]
    cases step with
    | dead dead => cases kind <;> simp [dead, Connection.Reading]
    | opened live state => cases kind <;> simp [state, Connection.Reading]
    | tlsRetry live state | tlsFailed live state | tlsDone live state =>
      cases kind <;> simp [live, state, Connection.Reading]
    | noData _ reading nothing => cases kind <;> simp [reading, reading.2.2, nothing]
    | tooLong _ reading got other | unrecognized _ reading got other =>
      cases kind <;> simp [reading, reading.2.2, other]
    | tooLarge _ reading got data large =>
      cases kind <;> simp [reading, data, Nat.not_le_of_lt large]
    | noMemory _ reading got data room =>
      cases kind <;> simp [reading, reading.1, data, room, Turn.bytes_ne_nil got]
    | dataEnd _ _ reading got data room => cases kind <;> simp [reading, reading.1, data, room, Turn.bytes_ne_nil got]
    | dataMore _ _ reading got data room =>
      cases kind <;> simp [reading, reading.1, data, room, Turn.bytes_ne_nil got]
    | command _ command reading got other =>
      obtain ⟨_, shown, -⟩ := commandStep_move (smtpHandleCommand_step g t conn command)
      cases kind with
      | sslNew =>
        by_cases starttls : command.command = .starttls
        · simp [shown, starttls]
        · simp [shown, starttls, Ne.symm starttls]
      | _ => simp [reading, reading.2.2, other]

/-- The calls of a read that one of the HTTP handlers makes. -/
theorem callKinds_httpHandleRead {response : Event} (hidden : response.call? = none) :
    callKinds (httpHandleRead t conn response).events = [] := by
  apply List.eq_nil_iff_forall_not_mem.mpr
  intro kind mem
  obtain ⟨e, mem, call⟩ := List.mem_filterMap.mp mem
  rw [mem_httpHandleRead mem, hidden] at call
  cases call

theorem makesCalls_smtpsHandler (type : conn.type = .smtps) :
    MakesCalls t conn (callKinds (smtpsHandler g t conn).events) := by
  have makes : ∀ kind, conn.Makes t kind ↔ kind = .accept ∧ conn.live = true := by
    intro kind
    cases kind <;> simp [Connection.Makes, Connection.Negotiates, Connection.Receives,
      Connection.Allocates, Connection.Upgrades, type]
  unfold MakesCalls smtpsHandler
  simp only [makes]
  cases conn.live with
  | false => simp
  | true => by_cases failed : t.sslAccept ≤ 0 <;> simp [failed]

theorem makesCalls_starttlsHandler (type : conn.type = .starttls) :
    MakesCalls t conn (callKinds (starttlsHandler g t conn).events) := by
  have makes : ∀ kind, ¬ conn.Makes t kind := by
    intro kind
    cases kind <;> simp [Connection.Makes, Connection.Negotiates, Connection.Receives,
      Connection.Allocates, Connection.Upgrades, type]
  unfold MakesCalls starttlsHandler
  simp only [makes]
  cases conn.live <;> simp

theorem makesCalls_httpHandler (type : conn.type = .http) :
    MakesCalls t conn (callKinds (httpHandler g t conn).events) := by
  have makes : ∀ kind, conn.Makes t kind ↔ kind = .read ∧ conn.live = true := by
    intro kind
    cases kind <;> simp [Connection.Makes, Connection.Negotiates, Connection.Receives,
      Connection.Allocates, Connection.Upgrades, type]
  have response := @callKinds_httpHandleRead t conn (httpmsgRedirectHttps g conn) rfl
  unfold MakesCalls httpHandler
  simp only [makes]
  cases conn.live with
  | false => simp
  | true =>
    have read : callKinds (.read conn.clientsocket t.recv ::
        (httpHandleRead t conn (httpmsgRedirectHttps g conn)).events) = [.read] :=
      congrArg (List.cons _) response
    simp [read]

theorem makesCalls_httpsHandler (type : conn.type = .https) :
    MakesCalls t conn (callKinds (httpsHandler t conn).events) := by
  have makes : ∀ kind, conn.Makes t kind ↔
      conn.live = true ∧ (kind = .accept ∨ kind = .read ∧ 0 < t.sslAccept) := by
    intro kind
    cases kind <;> simp [Connection.Makes, Connection.Negotiates, Connection.Receives,
      Connection.Allocates, Connection.Upgrades, type]
  have response := @callKinds_httpHandleRead t conn (httpsmsgNoContent conn) rfl
  unfold MakesCalls httpsHandler
  simp only [makes]
  cases conn.live with
  | false => simp
  | true =>
    by_cases failed : t.sslAccept ≤ 0
    · simp [failed, Int.not_lt.mpr failed]
    · have read : callKinds (.sslAccept conn.sslconn t.sslAccept :: .sslRead conn.sslconn t.recv ::
          (httpHandleRead t conn (httpsmsgNoContent conn)).events) = [.accept, .read] :=
        congrArg (fun rest => CallKind.accept :: CallKind.read :: rest) response
      simp [failed, read, Int.not_le.mp failed]

/-- Of each kind a turn makes the one call it is expected to make, or none. -/
theorem makesCalls_serveConnection :
    MakesCalls t conn (callKinds (serveConnection g t conn).2) := by
  rw [callKinds_serveConnection]
  unfold connectionHandler
  cases type : conn.type with
  | smtp => exact makesCalls_smtpHandler g t conn type
  | smtps => exact makesCalls_smtpsHandler g t conn type
  | starttls => exact makesCalls_starttlsHandler g t conn type
  | http => exact makesCalls_httpHandler g t conn type
  | https => exact makesCalls_httpsHandler t conn type

/-! ## The calls that wait for the client -/

/-- The read of a turn. -/
def receiveEvent : Event :=
  match conn.type with
  | .http => .read conn.clientsocket t.recv
  | .https => .sslRead conn.sslconn t.recv
  | _ => smtpReceiveMsg t conn

theorem call_receiveEvent : (receiveEvent t conn).call? = some .read := by
  unfold receiveEvent smtpReceiveMsg
  cases conn.type <;> cases conn.sslconn <;> rfl

theorem receiveEvent_mem (receives : conn.Receives t) :
    receiveEvent t conn ∈ (connectionHandler g t conn).events := by
  obtain ⟨live, http | ⟨https, done⟩ | ⟨smtp, opened, negotiating⟩⟩ := receives
  · simp [receiveEvent, connectionHandler, http, httpHandler, live]
  · simp [receiveEvent, connectionHandler, https, httpsHandler, live, Int.not_le.mpr done]
  · simp [receiveEvent, connectionHandler, smtp, smtpHandler, live, opened, negotiating]

theorem sslAccept_mem (negotiates : conn.Negotiates) :
    .sslAccept conn.sslconn t.sslAccept ∈ (connectionHandler g t conn).events := by
  obtain ⟨live, smtps | https | ⟨smtp, negotiating⟩⟩ := negotiates
  · by_cases failed : t.sslAccept ≤ 0 <;>
      simp [connectionHandler, smtps, smtpsHandler, live, failed]
  · by_cases failed : t.sslAccept ≤ 0 <;>
      simp [connectionHandler, https, httpsHandler, live, failed]
  · have branch : connectionHandler g t conn = smtpNegotiate t conn := by
      simp [connectionHandler, smtp, smtpHandler, live, negotiating]
    rw [branch]
    unfold smtpNegotiate
    dsimp only
    split
    · split <;> exact List.mem_singleton.mpr rfl
    · exact List.mem_singleton.mpr rfl

/-- Two calls of one kind are the same call. -/
theorem eq_of_call {events : List Event} (nodup : (callKinds events).Nodup) {e e' : Event}
    {kind : CallKind} (mem : e ∈ events) (mem' : e' ∈ events) (call : e.call? = some kind)
    (call' : e'.call? = some kind) : e = e' := by
  induction events with
  | nil => cases mem
  | cons first rest ih =>
    have other : ∀ {e : Event}, e ∈ rest → e.call? = some kind → first.call? ≠ some kind := by
      intro e mem call same
      unfold callKinds at nodup
      rw [List.filterMap_cons_some same, List.nodup_cons] at nodup
      exact nodup.1 (List.mem_filterMap.mpr ⟨e, mem, call⟩)
    rcases List.mem_cons.mp mem with rfl | later <;> rcases List.mem_cons.mp mem' with rfl | later'
    · rfl
    · exact absurd call (other later' call')
    · exact absurd call' (other later call)
    · refine ih ?_ later later'
      unfold callKinds at nodup ⊢
      rw [List.filterMap_cons] at nodup
      split at nodup
      · exact nodup
      · exact (List.nodup_cons.mp nodup).2

/-- The calls with which a handler waits for the client: `SSL_accept` and one read. -/
theorem eq_of_mem_calls {e : Event} (mem : e ∈ (connectionHandler g t conn).events) :
    (e.call? = some .accept → conn.Negotiates ∧ e = .sslAccept conn.sslconn t.sslAccept) ∧
      (e.call? = some .read → conn.Receives t ∧ e = receiveEvent t conn) := by
  have calls := makesCalls_serveConnection g t conn
  rw [callKinds_serveConnection] at calls
  obtain ⟨nodup, made⟩ := calls
  constructor
  · intro call
    have negotiates : conn.Negotiates := (made .accept).mp (List.mem_filterMap.mpr ⟨e, mem, call⟩)
    exact ⟨negotiates, eq_of_call nodup mem (sslAccept_mem g t conn negotiates) call rfl⟩
  · intro call
    have receives : conn.Receives t := (made .read).mp (List.mem_filterMap.mpr ⟨e, mem, call⟩)
    exact ⟨receives, eq_of_call nodup mem (receiveEvent_mem g t conn receives) call
      (call_receiveEvent t conn)⟩

end

end Femail
