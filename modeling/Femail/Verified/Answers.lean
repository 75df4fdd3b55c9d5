import Femail.Verified.Dialogue

/-! # Commands and their replies

A client pairs the replies it gets with the commands and messages it has sent by
counting.  `requests` is what it counts on its side; `smtp_handler` answers each of
them once (`replies_length_iff`), NOOP excepted.
-/

namespace Femail

open Foundation

/-- What a turn is due an answer for, by the states before and after it and the bytes it
    reads: the connection itself, a command, or a message that it ends, completed or not. -/
def requestsAt (s : ConnectionState) (bytes : List Byte) (next : Option ConnectionState) : Nat :=
  if s = .mailOpened then 1
  else if s = .mailExpectTlsNeg ∨ bytes = [] then 0
  else if s = .mailExpectData ∧ next = some .mailExpectData then 0
  else 1

def requests (g : Globals) (s : Option Connection) (t : Turn) : Nat :=
  match s with
  | none => 0
  | some conn =>
    requestsAt conn.state t.recv.bytes ((serveConnection g t conn).1.map Connection.state)

/-- A turn sends one reply for each request. -/
def Answered (g : Globals) (e : Entry (Option Connection) Turn (List Event)) : Prop :=
  (replies e.output).length = requests g e.before e.input

instance (g : Globals) : DecidablePred (Answered g) := fun _ => inferInstanceAs (Decidable (_ = _))

/-- The turn brings NOOP. -/
def BringsNoop (e : Entry (Option Connection) Turn (List Event)) : Prop :=
  e.before.bind e.input.commandFor = some .noop

instance : DecidablePred BringsNoop := fun _ => inferInstanceAs (Decidable (_ = _))

/-- One step: every request is answered, but for NOOP. -/
theorem replies_length_iff (g : Globals) (t : Turn) {conn : Connection} (smtp : conn.type = .smtp)
    (live : conn.live = true) :
    (replies (serveConnection g t conn).2).length = requests g (some conn) t ↔
      t.commandFor conn ≠ some .noop := by
  rw [ne_eq, commandFor_iff_parsed g smtp]
  change (observe (serveConnection g t conn).2).replies.length = requestsAt _ _ _ ↔ _
  rw [observe_serveConnection, state_serveConnection, connectionHandler_smtp g t smtp]
  have step := smtpHandler_step g t conn
  generalize smtpHandler g t conn = handled at step ⊢
  cases step with
  | dead dead =>
    rw [live] at dead
    cases dead
  | opened _ state => simp [requestsAt, state]
  | tlsRetry _ state | tlsFailed _ state | tlsDone _ state => simp [requestsAt, state]
  | noData _ reading nothing => simp [requestsAt, reading.2.1, nothing]
  | tooLong _ reading got other | unrecognized _ reading got other =>
    simp [requestsAt, reading.2.1, reading.2.2, Turn.bytes_ne_nil got, other]
  | tooLarge _ _ got data | noMemory _ _ got data =>
    simp [requestsAt, Turn.bytes_ne_nil got, data, settledState]
  | dataEnd _ _ _ got data =>
    simp [requestsAt, Turn.bytes_ne_nil got, data, settledState]
  | dataMore _ _ _ got data =>
    simp [requestsAt, Turn.bytes_ne_nil got, data, settledState, Connection.appended]
  | command chunk command reading got other =>
    obtain ⟨sent, shown, move⟩ := commandStep_move (smtpHandleCommand_step g t conn command)
    rw [observe_smtpReceiveMsg, observe_parseClientCommand, shown]
    have one : requestsAt conn.state t.recv.bytes (settledState
        (smtpHandleCommand g t conn command).conn.state
        (smtpHandleCommand g t conn command).result) = 1 := by
      simp [requestsAt, reading.2.1, reading.2.2, Turn.bytes_ne_nil got, other]
    rw [one]
    generalize settledState _ _ = next at move
    generalize command.command = verb at move ⊢
    cases move with
    | noop => simp
    | unimplemented _ kind | helloTooLong _ kind => rcases kind with rfl | rfl <;> simp
    | hello _ _ kind => rcases kind with ⟨rfl, -⟩ | ⟨rfl, -⟩ <;> simp
    | _ => simp

/-! ## Runs -/

/-- The replies of a history, oldest first. -/
def repliesSent (h : SessionHistory) : List Reply := h.reverse.flatMap fun e => replies e.output

/-- The requests of a history. -/
def requestsMade (g : Globals) (h : SessionHistory) : Nat :=
  (h.map fun e => requests g e.before e.input).sum

theorem length_repliesSent_cons (e : Entry (Option Connection) Turn (List Event))
    (h : SessionHistory) :
    (repliesSent (e :: h)).length = (repliesSent h).length + (replies e.output).length := by
  simp [repliesSent]

/-- Answers turn by turn add up. -/
theorem length_repliesSent (g : Globals) {h : SessionHistory} (answered : ∀ e ∈ h, Answered g e) :
    (repliesSent h).length = requestsMade g h := by
  induction h with
  | nil => rfl
  | cons e h ih =>
    obtain ⟨now, before⟩ := List.forall_mem_cons.mp answered
    rw [length_repliesSent_cons, ih before, now, Nat.add_comm]
    rfl

/-- In a run the turns with a missing reply are those that bring NOOP. -/
theorem answered_iff_not_bringsNoop {g : Globals} {h : SessionHistory} {s : Option Connection}
    (reaches : (session g).Reaches (smtpStart g) Machine.anyStep h s) :
    ∀ e ∈ h, Answered g e ↔ ¬ BringsNoop e := by
  refine entries_of_reaches (fun t => iff_of_true rfl nofun) ?_ reaches
  intro conn t smtp live
  exact replies_length_iff g t smtp live

/-- **One reply for each command.**  In every run of an SMTP connection, each turn sends as
    many replies as it is due, and after each turn as many replies as requests have gone
    over the connection, exactly if no turn brings NOOP. -/
theorem answered_iff_no_noop (g : Globals) {h : SessionHistory} {s : Option Connection}
    (reaches : (session g).Reaches (smtpStart g) Machine.anyStep h s) :
    ((∀ e ∈ h, Answered g e) ∧
        ∀ older, older <:+ h → (repliesSent older).length = requestsMade g older) ↔
      ∀ e ∈ h, ¬ BringsNoop e := by
  have each := answered_iff_not_bringsNoop reaches
  constructor
  · rintro ⟨answered, -⟩ e mem
    exact (each e mem).mp (answered e mem)
  · intro calm
    have answered : ∀ e ∈ h, Answered g e := fun e mem => (each e mem).mpr (calm e mem)
    refine ⟨answered, ?_⟩
    intro older suffix
    exact length_repliesSent g fun e mem => answered e (suffix.subset mem)

def noopTurn : Turn := .sends (ascii "NOOP\r\n") (by decide) (by decide)

theorem answered_iff_no_noop_mailey :
    let g : Globals := ⟨ascii "mail.mailey.femail", some 1⟩
    let start := some (acceptedConnection g (.onSocket 5 Connection.zero) .smtp .opportunisticTls)
    let turns := [.silent, starttlsTurn, .silent, { Turn.silent with sslAccept := 1 }, dataTurn]
    let last := (session g).trace [] start turns
    ∀ e ∈ last.1, Answered g e := by
  intro g start turns last
  have opened : smtpStart g start := ⟨_, _, rfl⟩
  have run : (session g).Reaches (smtpStart g) Machine.anyStep last.1 last.2 :=
    (Machine.Reaches.start opened).trace turns (Machine.admits_anyStep _ _ _ _)
  have calm : ∀ e ∈ last.1, ¬ BringsNoop e := by decide +kernel
  exact ((answered_iff_no_noop g run).mpr calm).1

/-- NOOP is not answered. -/
theorem noop_unanswered :
    ∃ h s, (session maileyGlobals).Reaches (smtpStart maileyGlobals) Machine.anyStep h s ∧
      ∃ e ∈ h, ¬ Answered maileyGlobals e := by
  have run := maileyConnection_reaches [.silent, noopTurn]
  exact ⟨_, _, run, by decide +kernel⟩

end Femail
