import Femail.Verified.Transaction

/-! # What the state field remembers

The switch looks at the state alone to decide about MAIL FROM and RCPT TO.  For RCPT
TO that is enough: the state is MAILING or RCPT exactly while a mail transaction is
open (`DialogueStep.inTransaction_iff`).  For MAIL FROM it is not: the greeting is kept
in the same field as the transaction, and a reset that ends a transaction in the
middle ends the greeting with it.
-/

namespace Femail

open Foundation

/-! ## RCPT TO inside a transaction -/

/-- The turn ends an open mail transaction. -/
def Observed.ClosesMail (o : Observed) : Prop :=
  o.Greets ∨ some .rset ∈ o.parsed ∨ some .data ∈ o.parsed ∨ some .starttls ∈ o.parsed

instance : DecidablePred Observed.ClosesMail := fun _ => inferInstanceAs (Decidable (_ ∨ _))

/-- A MAIL FROM has been answered 250, and nothing has closed its transaction since. -/
def MailOpen (h : List Observed) : Prop :=
  Since (fun o => ¬ o.ClosesMail) (fun o _ => o.AcceptsMail) h

instance : DecidablePred MailOpen := fun h => Since.decidable h

/-- The states in which RCPT TO is accepted. -/
def ConnectionState.InTransaction (s : ConnectionState) : Prop := s = .mailMailing ∨ s = .mailRcpt

instance : DecidablePred ConnectionState.InTransaction := fun _ => inferInstanceAs (Decidable (_ ∨ _))

theorem CommandMove.inTransaction_iff {s next : ConnectionState} {verb : SMTPCommand}
    {sent : List Reply} {bytes : List Byte} (move : CommandMove s verb sent (some next)) :
    next.InTransaction ↔
      (⟨bytes, [some verb], sent, []⟩ : Observed).AcceptsMail ∨
        (¬ (⟨bytes, [some verb], sent, []⟩ : Observed).ClosesMail ∧ s.InTransaction) := by
  generalize target : some next = next' at move
  cases move with
  | quit => cases target
  | noop | help | rcptSequence =>
    cases target
    simp [Observed.AcceptsMail, Observed.ClosesMail, Observed.Greets]
  | unimplemented _ kind | helloTooLong _ kind =>
    cases target
    obtain rfl | rfl := kind
    · simp [Observed.AcceptsMail, Observed.ClosesMail, Observed.Greets]
    · simp [Observed.AcceptsMail, Observed.ClosesMail, Observed.Greets]
  | hello _ _ kind =>
    cases target
    obtain ⟨rfl, rfl⟩ | ⟨rfl, rfl⟩ := kind
    · simp [Observed.AcceptsMail, Observed.ClosesMail, Observed.Greets, ConnectionState.InTransaction]
    · simp [Observed.AcceptsMail, Observed.ClosesMail, Observed.Greets, ConnectionState.InTransaction]
  | mailSequence any =>
    cases target
    simp [Observed.AcceptsMail, any, ConnectionState.InTransaction]
  | mail =>
    cases target
    simp [Observed.AcceptsMail, ConnectionState.InTransaction]
  | rcpt inside =>
    cases target
    simp [Observed.AcceptsMail, Observed.ClosesMail, Observed.Greets, inside,
      ConnectionState.InTransaction]
  | rset =>
    cases target
    split <;> simp [Observed.AcceptsMail, Observed.ClosesMail, ConnectionState.InTransaction]
  | data | starttls =>
    cases target
    simp [Observed.AcceptsMail, Observed.ClosesMail, ConnectionState.InTransaction]

/-- One step: a transaction is open after a turn that opens one, or that finds one
    open and does not close it. -/
theorem DialogueStep.inTransaction_iff {s next : ConnectionState} {o : Observed}
    (step : DialogueStep s o (some next)) :
    next.InTransaction ↔ o.AcceptsMail ∨ (¬ o.ClosesMail ∧ s.InTransaction) := by
  generalize target : some next = next' at step
  cases step with
  | tooLong | noMemory => cases target
  | opened state | negotiated _ state | tooLarge _ state | dataEnd _ state =>
    cases target
    simp [Observed.AcceptsMail, state, ConnectionState.InTransaction]
  | negotiating _ _ _ _ kind | noData _ kind =>
    subst target
    obtain rfl : next = s := by simpa using kind
    simp [Observed.AcceptsMail, Observed.ClosesMail, Observed.Greets]
  | dataMore | unrecognized =>
    cases target
    simp [Observed.AcceptsMail, Observed.ClosesMail, Observed.Greets]
  | command _ _ _ _ _ _ _ move =>
    subst target
    exact move.inTransaction_iff

/-- What RCPT TO is answered, by the state alone. -/
theorem DialogueStep.rcpt_answer {s : ConnectionState} {o : Observed} {next : Option ConnectionState}
    (step : DialogueStep s o next) (parsed : some .rcpt ∈ o.parsed) :
    (s.InTransaction ∧ o.replies = [.acceptOk]) ∨
      (¬ s.InTransaction ∧ o.replies = [.rejectSequence] ∧ next = some s) := by
  cases step with
  | command _ _ _ _ _ _ _ move =>
    rw [List.mem_singleton, Option.some.injEq] at parsed
    subst parsed
    cases move with
    | rcpt inside => exact Or.inl ⟨inside, rfl⟩
    | rcptSequence mailing rcpt => exact Or.inr ⟨by rintro (same | same) <;> contradiction, rfl, rfl⟩
    | unimplemented _ kind | helloTooLong _ kind => simp at kind
    | hello _ _ kind => simp at kind
  | _ => simp at parsed

/-- **RCPT TO exactly inside a transaction.**  In every run of an SMTP connection a RCPT
    TO is answered 250 exactly if a MAIL FROM was, with no accepted HELO or EHLO, no
    RSET, no DATA and no STARTTLS since; else it is answered 503 and leaves the state. -/
theorem rcpt_accepted_iff_mailOpen (g : Globals) {h : SessionHistory} {s : Option Connection}
    (reaches : (session g).Reaches (smtpStart g) Machine.anyStep h s) (t : Turn)
    (parsed : some .rcpt ∈ parses ((session g).step s t).2) :
    (.acceptOk ∈ replies ((session g).step s t).2 ↔ MailOpen (seen h)) ∧
      (¬ MailOpen (seen h) → replies ((session g).step s t).2 = [.rejectSequence] ∧
        ((session g).step s t).1.map Connection.state = s.map Connection.state) := by
  cases s with
  | none => cases parsed
  | some conn =>
    obtain ⟨smtp, live, -, inv⟩ :=
      dialogue_invariant (fun h s => s.InTransaction ↔ MailOpen h)
        (by simp [ConnectionState.InTransaction, MailOpen])
        (fun h conn t next smtp http inv ok step => by
          rw [step.inTransaction_iff, inv, MailOpen, MailOpen, since_cons])
        reaches conn rfl
    rw [← inv]
    obtain ⟨inside, sent⟩ | ⟨outside, sent, left⟩ :=
      (serveConnection_dialogue g t smtp live).rcpt_answer parsed
    · have answered : replies ((session g).step (some conn) t).2 = [.acceptOk] := sent
      rw [answered]
      exact ⟨iff_of_true List.mem_cons_self inside, fun outside => absurd inside outside⟩
    · have answered : replies ((session g).step (some conn) t).2 = [.rejectSequence] := sent
      rw [answered]
      exact ⟨iff_of_false (by simp) outside, fun _ => ⟨rfl, left⟩⟩

/-- A second recipient. -/
def rcptTurn : Turn := .sends (ascii "RCPT TO:<c@mailey>\r\n") (by decide) (by decide)

theorem rcpt_accepted_iff_mailOpen_mailey :
    let last := (session maileyGlobals).trace [] maileyConnection (maileyTransaction.take 3)
    MailOpen (seen last.1) ∧ .acceptOk ∈ replies ((session maileyGlobals).step last.2 rcptTurn).2 := by
  intro last
  have run := maileyConnection_reaches (maileyTransaction.take 3)
  have parsed : some .rcpt ∈ parses ((session maileyGlobals).step last.2 rcptTurn).2 := by
    decide +kernel
  have isOpen : MailOpen (seen last.1) := by decide +kernel
  exact ⟨isOpen, (rcpt_accepted_iff_mailOpen _ run rcptTurn parsed).1.mpr isOpen⟩

/-! ## The greeting -/

/-- A HELO or EHLO has been accepted, and no STARTTLS since. -/
def GreetedSinceStarttls (h : List Observed) : Prop :=
  Since (fun o => .acceptStarttls ∉ o.replies) (fun o _ => o.Greets) h

instance : DecidablePred GreetedSinceStarttls := fun h => Since.decidable h

/-- Where a greeting is in effect, RSET does not come inside a transaction, and a read of
    message text fits the size limit. -/
def keepsGreeting : SessionHistory → Option Connection → Turn → Prop
  | h, some conn, t => GreetedSinceStarttls (seen h) →
      (t.commandFor conn = some .rset → ¬ conn.state.InTransaction) ∧
      (conn.state = .mailExpectData → t.recv.bytes ≠ [] → conn.nextSize ≤ esmtpSize)
  | _, none, _ => True

instance : ∀ h s t, Decidable (keepsGreeting h s t)
  | _, some _, _ => inferInstanceAs (Decidable (_ → _ ∧ _))
  | _, none, _ => inferInstanceAs (Decidable True)

theorem CommandMove.ne_rejectTooLarge {s : ConnectionState} {verb : SMTPCommand}
    {sent : List Reply} {next : Option ConnectionState} (move : CommandMove s verb sent next) :
    .rejectTooLarge ∉ sent := by
  cases move with
  | hello _ _ kind => rcases kind with ⟨-, rfl⟩ | ⟨-, rfl⟩ <;> simp
  | _ => simp

/-- The 554 is the answer to message text that does not fit. -/
theorem tooLarge_of_reply {g : Globals} {t : Turn} {conn : Connection} (smtp : conn.type = .smtp)
    (sent : .rejectTooLarge ∈ (observe (serveConnection g t conn).2).replies) :
    conn.state = .mailExpectData ∧ t.recv.bytes ≠ [] ∧ esmtpSize < conn.nextSize := by
  rw [observe_serveConnection, connectionHandler_smtp g t smtp] at sent
  have step := smtpHandler_step g t conn
  generalize smtpHandler g t conn = handled at step sent
  cases step with
  | tooLarge chunk _ got data large =>
    exact ⟨data, Turn.bytes_ne_nil got, large⟩
  | command chunk command =>
    obtain ⟨answer, shown, move⟩ := commandStep_move (smtpHandleCommand_step g t conn command)
    rw [observe_smtpReceiveMsg, observe_parseClientCommand, shown] at sent
    exact absurd sent move.ne_rejectTooLarge
  | _ => simp at sent

/-- The step of the command switch: only RSET inside a transaction and STARTTLS leave the
    greeted states. -/
theorem CommandMove.keepsGreeted {s next : ConnectionState} {verb : SMTPCommand}
    {sent : List Reply} (move : CommandMove s verb sent (some next))
    (data : s ≠ .mailExpectData) (greeted : s.Greeted) (rset : verb = .rset → ¬ s.InTransaction)
    (plain : .acceptStarttls ∉ sent) : next.Greeted := by
  generalize target : some next = next' at move
  cases move with
  | quit => cases target
  | noop | help | unimplemented | helloTooLong | mailSequence | rcptSequence =>
    cases target
    exact greeted
  | hello | mail | rcpt | data =>
    cases target
    decide
  | starttls => exact absurd List.mem_cons_self plain
  | rset =>
    cases target
    -- outside a transaction the only greeted state left is GREETED itself
    have same : s = .mailGreeted := by
      rcases greeted with same | same | same | same
      · exact same
      · exact absurd (Or.inl same) (rset rfl)
      · exact absurd (Or.inr same) (rset rfl)
      · exact absurd same data
    rw [if_pos same]
    decide

theorem DialogueStep.keepsGreeted {s next : ConnectionState} {o : Observed}
    (step : DialogueStep s o (some next)) (greeted : s.Greeted)
    (rset : some .rset ∈ o.parsed → ¬ s.InTransaction) (fits : .rejectTooLarge ∉ o.replies)
    (plain : .acceptStarttls ∉ o.replies) : next.Greeted := by
  generalize target : some next = next' at step
  cases step with
  | tooLong | noMemory => cases target
  | opened state | negotiated _ state =>
    rw [state] at greeted
    exact absurd greeted (by decide)
  | tooLarge => exact absurd List.mem_cons_self fits
  | dataEnd =>
    cases target
    decide
  | negotiating _ _ _ _ kind | noData _ kind =>
    subst target
    obtain rfl : next = s := by simpa using kind
    exact greeted
  | dataMore | unrecognized =>
    cases target
    exact greeted
  | command _ verb _ _ _ _ data move =>
    subst target
    exact move.keepsGreeted data greeted (fun same => rset (by rw [same]; exact List.mem_cons_self))
      plain

/-- An accepted HELO or EHLO leads to GREETED. -/
theorem DialogueStep.state_of_greets {s next : ConnectionState} {o : Observed}
    (step : DialogueStep s o (some next)) (greets : o.Greets) : next.Greeted := by
  generalize target : some next = next' at step
  cases step with
  | command _ _ _ _ _ _ _ move =>
    subst target
    generalize target : some next = next' at move
    cases move with
    | hello =>
      cases target
      decide
    | _ => simp [Observed.Greets] at greets
  | _ => simp [Observed.Greets] at greets

/-- MAIL FROM is answered 503 in EXPECT_ANY only. -/
theorem DialogueStep.mail_answer {s : ConnectionState} {o : Observed} {next : Option ConnectionState}
    (step : DialogueStep s o next) (parsed : some .mail ∈ o.parsed)
    (refused : .rejectSequence ∈ o.replies) : s = .mailExpectAny := by
  cases step with
  | command _ _ _ _ _ _ _ move =>
    rw [List.mem_singleton, Option.some.injEq] at parsed
    subst parsed
    cases move with
    | mailSequence any => exact any
    | unimplemented _ kind | helloTooLong _ kind => simp at kind
    | hello _ _ kind => simp at kind
    | mail => simp at refused
  | _ => simp at parsed

/-- **A greeting is remembered.**  In every run of an SMTP connection in which a greeted
    client sends no RSET inside a transaction and no message over the size limit, MAIL FROM
    is not answered 503 once a HELO or EHLO has been accepted and no STARTTLS since. -/
theorem greeting_not_forgotten (g : Globals) {h : SessionHistory} {s : Option Connection}
    (reaches : (session g).Reaches (smtpStart g) keepsGreeting h s)
    (greeted : GreetedSinceStarttls (seen h)) (t : Turn)
    (parsed : some .mail ∈ parses ((session g).step s t).2) :
    .rejectSequence ∉ replies ((session g).step s t).2 := by
  cases s with
  | none => cases parsed
  | some conn =>
    obtain ⟨smtp, live, -, inv⟩ :=
      dialogue_invariant (fun h s => GreetedSinceStarttls h → s.Greeted)
        (fun never => absurd never (by simp [GreetedSinceStarttls]))
        (fun h conn t next smtp http inv ok step => by
          rintro (greets | ⟨plain, before⟩)
          · exact step.state_of_greets greets
          · refine step.keepsGreeted (inv before) ?_ ?_ plain
            · exact fun parsed => (ok before).1 (commandFor_of_parsed smtp parsed)
            · intro sent
              obtain ⟨data, some', large⟩ := tooLarge_of_reply smtp sent
              exact absurd ((ok before).2 data some') (Nat.not_le_of_lt large))
        reaches conn rfl
    intro refused
    have any := (serveConnection_dialogue g t smtp live).mail_answer parsed refused
    have state := inv greeted
    rw [any] at state
    exact absurd state (by decide)

def rsetTurn : Turn := .sends (ascii "RSET\r\n") (by decide) (by decide)

/-- A message from a greeted client, and then the next transaction. -/
theorem greeting_not_forgotten_mailey :
    let turns := maileyTransaction ++ [dataTurn, .sends crlfDotCrlf (by decide) (by decide)]
    let last := (session maileyGlobals).trace [] maileyConnection turns
    GreetedSinceStarttls (seen last.1) ∧
      .rejectSequence ∉ replies ((session maileyGlobals).step last.2 mailTurn).2 := by
  intro turns last
  have admitted : (session maileyGlobals).Admits keepsGreeting [] maileyConnection turns := by
    decide +kernel
  have run := (Machine.Reaches.start maileyConnection_start).trace turns admitted
  have greeted : GreetedSinceStarttls (seen last.1) := by decide +kernel
  have parsed : some .mail ∈ parses ((session maileyGlobals).step last.2 mailTurn).2 := by
    decide +kernel
  exact ⟨greeted, greeting_not_forgotten _ run greeted mailTurn parsed⟩

/-- RSET inside a transaction: the MAIL FROM that follows is answered 503. -/
theorem greeting_forgotten_by_rset :
    ∃ h s, (session maileyGlobals).Reaches (smtpStart maileyGlobals) Machine.anyStep h s ∧
      GreetedSinceStarttls (seen h) ∧ some .mail ∈ parses ((session maileyGlobals).step s mailTurn).2 ∧
      .rejectSequence ∈ replies ((session maileyGlobals).step s mailTurn).2 := by
  have run := maileyConnection_reaches (maileyTransaction ++ [rsetTurn])
  exact ⟨_, _, run, by decide +kernel, by decide +kernel, by decide +kernel⟩

end Femail
