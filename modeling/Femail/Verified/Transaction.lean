import Femail.Verified.Dialogue

/-! # Mail transactions

The order of commands that the `state` field stands for: a MAIL FROM after a
greeting, a message after MAIL FROM and RCPT TO.  The switch tests the state for
MAIL and for RCPT but not for DATA, so both laws hold on the runs in which DATA
itself comes in order.
-/

namespace Femail

open Foundation

/-! ## What a turn means for the transaction -/

namespace Observed

/-- A HELO or EHLO is accepted. -/
def Greets (o : Observed) : Prop := .acceptHello ∈ o.replies ∨ .acceptEhello ∈ o.replies

/-- A HELO or EHLO is refused. -/
def RefusesHello (o : Observed) : Prop :=
  (some .helo ∈ o.parsed ∨ some .ehlo ∈ o.parsed) ∧ .rejectTooLong ∈ o.replies

/-- MAIL FROM is answered 250. -/
def AcceptsMail (o : Observed) : Prop := some .mail ∈ o.parsed ∧ .acceptOk ∈ o.replies

/-- RCPT TO is answered 250. -/
def AcceptsRcpt (o : Observed) : Prop := some .rcpt ∈ o.parsed ∧ .acceptOk ∈ o.replies

/-- A message is completed or refused. -/
def EndsMessage (o : Observed) : Prop :=
  (o.parsed = [] ∧ .acceptOk ∈ o.replies) ∨ .rejectTooLarge ∈ o.replies ∨ .rejectError ∈ o.replies

/-- RSET, HELO, EHLO, STARTTLS, and the end of a message. -/
def BreaksTransaction (o : Observed) : Prop :=
  some .rset ∈ o.parsed ∨ some .helo ∈ o.parsed ∨ some .ehlo ∈ o.parsed ∨
    some .starttls ∈ o.parsed ∨ o.EndsMessage

/-- A TLS negotiation completes. -/
def Secures (o : Observed) : Prop := ∃ ret ∈ o.handshakes, 0 < ret

instance : DecidablePred Greets := fun _ => inferInstanceAs (Decidable (_ ∨ _))
instance : DecidablePred RefusesHello := fun _ => inferInstanceAs (Decidable (_ ∧ _))
instance : DecidablePred AcceptsMail := fun _ => inferInstanceAs (Decidable (_ ∧ _))
instance : DecidablePred AcceptsRcpt := fun _ => inferInstanceAs (Decidable (_ ∧ _))
instance : DecidablePred Secures := fun o => inferInstanceAs (Decidable (∃ ret ∈ o.handshakes, 0 < ret))

end Observed

/-- `after` are the newest turns of `h`, back to an accepted MAIL FROM that followed
    a greeting, and none of them breaks the transaction. -/
def Transaction (h after : List Observed) : Prop :=
  ∃ mail before, h = after ++ mail :: before ∧ mail.AcceptsMail ∧
    (∃ o ∈ before, o.Greets) ∧ ∀ o ∈ after, ¬ o.BreaksTransaction

/-- A transaction with at least one accepted recipient. -/
def CompleteTransaction (h : List Observed) : Prop :=
  ∃ after, Transaction h after ∧ ∃ o ∈ after, o.AcceptsRcpt

/-- A HELO or EHLO has been refused since the last accepted MAIL FROM. -/
def HelloRefusedSinceMail (h : List Observed) : Prop :=
  Since (fun o => ¬ o.AcceptsMail) (fun o _ => o.RefusesHello) h

instance : DecidablePred HelloRefusedSinceMail := fun h => Since.decidable h

theorem Transaction.cons {h after : List Observed} {o : Observed} (open' : Transaction h after)
    (kept : ¬ o.BreaksTransaction) : Transaction (o :: h) (o :: after) := by
  obtain ⟨mail, before, rfl, accepted, greeted, unbroken⟩ := open'
  refine ⟨mail, before, rfl, accepted, greeted, ?_⟩
  intro o' mem
  obtain rfl | older := List.mem_cons.mp mem
  · exact kept
  · exact unbroken o' older

/-! ## Messages only inside a transaction -/

/-- DATA comes after an accepted RCPT TO, and no HELO or EHLO was refused since
    MAIL FROM. -/
def dataInSequence : SessionHistory → Option Connection → Turn → Prop
  | h, some conn, t => t.commandFor conn = some .data →
      conn.state = .mailRcpt ∧ ¬ HelloRefusedSinceMail (seen h)
  | _, none, _ => True

instance : ∀ h s t, Decidable (dataInSequence h s t)
  | _, some _, _ => inferInstanceAs (Decidable (_ → _))
  | _, none, _ => inferInstanceAs (Decidable True)

/-- What the state field says about the turns so far. -/
structure TransactionInv (h : List Observed) (s : ConnectionState) : Prop where
  greeted : s = .mailGreeted ∨ s = .mailMailing ∨ s = .mailRcpt ∨ s = .mailExpectData →
    ∃ o ∈ h, o.Greets
  mailing : s = .mailMailing ∨ s = .mailRcpt → ¬ HelloRefusedSinceMail h → ∃ after, Transaction h after
  complete : s = .mailRcpt → ¬ HelloRefusedSinceMail h → CompleteTransaction h

/-- A turn that stays in its state keeps the invariant, unless it breaks the
    transaction with something else than a refused HELO. -/
theorem TransactionInv.stay {h : List Observed} {s : ConnectionState} {o : Observed}
    (inv : TransactionInv h s) (other : ¬ o.AcceptsMail)
    (calm : o.RefusesHello ∨ ¬ o.BreaksTransaction) : TransactionInv (o :: h) s := by
  -- a refused HELO is the one break that leaves the state, and it is remembered
  have before : ¬ HelloRefusedSinceMail (o :: h) →
      ¬ HelloRefusedSinceMail h ∧ ¬ o.BreaksTransaction := by
    intro none
    refine ⟨fun refused => none (Or.inr ⟨other, refused⟩), ?_⟩
    exact calm.resolve_left fun refuses => none (Or.inl refuses)
  refine ⟨?_, ?_, ?_⟩
  · intro state
    obtain ⟨o', mem, greets⟩ := inv.greeted state
    exact ⟨o', List.mem_cons_of_mem _ mem, greets⟩
  · intro state none
    obtain ⟨none', kept⟩ := before none
    obtain ⟨after, open'⟩ := inv.mailing state none'
    exact ⟨o :: after, open'.cons kept⟩
  · intro state none
    obtain ⟨none', kept⟩ := before none
    obtain ⟨after, open', o', mem, rcpt⟩ := inv.complete state none'
    exact ⟨o :: after, open'.cons kept, o', List.mem_cons_of_mem _ mem, rcpt⟩

/-- A turn that leaves MAILING and RCPT, and enters a greeted state only from one. -/
theorem TransactionInv.leave {h : List Observed} {s next : ConnectionState} {o : Observed}
    (inv : TransactionInv h s) (mailing : next ≠ .mailMailing) (rcpt : next ≠ .mailRcpt)
    (greeted : next = .mailGreeted ∨ next = .mailExpectData →
      o.Greets ∨ s = .mailGreeted ∨ s = .mailRcpt ∨ s = .mailExpectData) :
    TransactionInv (o :: h) next := by
  refine ⟨?_, ?_, ?_⟩
  · intro state
    have enters : next = .mailGreeted ∨ next = .mailExpectData := by
      obtain same | same | same | same := state
      · exact Or.inl same
      · exact absurd same mailing
      · exact absurd same rcpt
      · exact Or.inr same
    obtain greets | from' := greeted enters
    · exact ⟨o, List.mem_cons_self, greets⟩
    · obtain ⟨o', mem, greets⟩ := inv.greeted (by
        obtain same | same | same := from'
        · exact Or.inl same
        · exact Or.inr (Or.inr (Or.inl same))
        · exact Or.inr (Or.inr (Or.inr same)))
      exact ⟨o', List.mem_cons_of_mem _ mem, greets⟩
  · intro state
    exact absurd state (by simp [mailing, rcpt])
  · intro state
    exact absurd state rcpt

/-- A turn that shows neither MAIL FROM nor the end of a transaction. -/
theorem TransactionInv.quiet {h : List Observed} {s : ConnectionState} {o : Observed}
    (inv : TransactionInv h s)
    (verbs : ∀ verb, some verb ∈ o.parsed → verb ≠ .mail ∧ verb ≠ .rset ∧ verb ≠ .helo ∧
      verb ≠ .ehlo ∧ verb ≠ .starttls)
    (message : ¬ o.EndsMessage) : TransactionInv (o :: h) s := by
  refine inv.stay (fun accepts => (verbs _ accepts.1).1 rfl) (Or.inr ?_)
  rintro (rset | helo | ehlo | starttls | ends)
  · exact (verbs _ rset).2.1 rfl
  · exact (verbs _ helo).2.2.1 rfl
  · exact (verbs _ ehlo).2.2.2.1 rfl
  · exact (verbs _ starttls).2.2.2.2 rfl
  · exact message ends

/-- The step of the command switch. -/
theorem TransactionInv.command {h : List Observed} {s next : ConnectionState} {bytes : List Byte}
    {verb : SMTPCommand} {sent : List Reply} (inv : TransactionInv h s) (http : s ≠ .httpOpened)
    (opened : s ≠ .mailOpened) (negotiating : s ≠ .mailExpectTlsNeg)
    (move : CommandMove s verb sent (some next)) (sequence : verb = .data → s = .mailRcpt) :
    TransactionInv (⟨bytes, [some verb], sent, []⟩ :: h) next := by
  generalize target : some next = next' at move
  cases move with
  | quit => cases target
  | noop | help | rcptSequence =>
    cases target
    exact inv.quiet (by simp) (by simp [Observed.EndsMessage])
  | mailSequence =>
    cases target
    exact inv.stay (by simp [Observed.AcceptsMail])
      (Or.inr (by simp [Observed.BreaksTransaction, Observed.EndsMessage]))
  | unimplemented _ kind =>
    cases target
    obtain rfl | rfl := kind
    · exact inv.quiet (by simp) (by simp [Observed.EndsMessage])
    · exact inv.quiet (by simp) (by simp [Observed.EndsMessage])
  | helloTooLong _ kind =>
    cases target
    refine inv.stay ?_ (Or.inl ⟨?_, by simp⟩)
    · rcases kind with rfl | rfl <;> simp [Observed.AcceptsMail]
    · rcases kind with rfl | rfl <;> simp
  | hello _ accept kind =>
    cases target
    refine inv.leave (by decide) (by decide) (fun _ => Or.inl ?_)
    obtain ⟨-, rfl⟩ | ⟨-, rfl⟩ := kind
    · exact Or.inl (by simp)
    · exact Or.inr (by simp)
  | rset =>
    cases target
    split
    · rename_i greeted
      exact inv.leave (by decide) (by decide) (by simp [greeted])
    · exact inv.leave (by decide) (by decide) (by simp)
  | data =>
    cases target
    exact inv.leave (by decide) (by decide) (by simp [sequence rfl])
  | starttls =>
    cases target
    exact inv.leave (by decide) (by decide) (by simp)
  | mail any =>
    -- in every state MAIL is accepted in there has been a greeting
    cases target
    have greeted : ∃ o ∈ h, o.Greets := by
      apply inv.greeted
      cases s <;> simp_all
    refine ⟨fun _ => ?_, fun _ _ => ?_, by simp⟩
    · obtain ⟨o, mem, greets⟩ := greeted
      exact ⟨o, List.mem_cons_of_mem _ mem, greets⟩
    · exact ⟨[], _, h, rfl, by simp [Observed.AcceptsMail], greeted, by simp⟩
  | rcpt inside =>
    cases target
    -- an accepted RCPT TO goes on with the transaction and completes it
    have kept : ¬ (⟨bytes, [some .rcpt], [.acceptOk], []⟩ : Observed).BreaksTransaction := by
      simp [Observed.BreaksTransaction, Observed.EndsMessage]
    have stay : TransactionInv (⟨bytes, [some .rcpt], [.acceptOk], []⟩ :: h) s :=
      inv.stay (by simp [Observed.AcceptsMail]) (Or.inr kept)
    refine ⟨fun _ => ?_, fun _ => stay.mailing inside, fun _ calm => ?_⟩
    · exact stay.greeted (Or.inr (inside.imp id Or.inl))
    · have calm' : ¬ HelloRefusedSinceMail h :=
        fun refused => calm (Or.inr ⟨by simp [Observed.AcceptsMail], refused⟩)
      obtain ⟨after, open'⟩ := inv.mailing inside calm'
      exact ⟨_ :: after, open'.cons kept, _, List.mem_cons_self, by simp [Observed.AcceptsRcpt]⟩

theorem TransactionInv.step {h : List Observed} {s next : ConnectionState} {o : Observed}
    (inv : TransactionInv h s) (http : s ≠ .httpOpened) (step : DialogueStep s o (some next))
    (sequence : some .data ∈ o.parsed → s = .mailRcpt) : TransactionInv (o :: h) next := by
  generalize target : some next = next' at step
  cases step with
  | tooLong | noMemory => cases target
  | opened | negotiated | tooLarge =>
    cases target
    exact inv.leave (by decide) (by decide) (by simp)
  | dataEnd bytes data =>
    cases target
    exact inv.leave (by decide) (by decide) (by simp [data])
  | negotiating _ _ _ _ kind | noData _ kind =>
    subst target
    obtain rfl : next = s := by simpa using kind
    exact inv.quiet (by simp) (by simp [Observed.EndsMessage])
  | dataMore | unrecognized =>
    cases target
    exact inv.quiet (by simp) (by simp [Observed.EndsMessage])
  | command bytes verb sent _ opened negotiating _ move =>
    subst target
    exact inv.command http opened negotiating move (fun data => sequence (by simp [data]))

/-- **A message only inside a transaction.**  In every run of an SMTP connection in
    which DATA comes in sequence, a DATA answered 354 follows a greeting, an
    accepted MAIL FROM and an accepted RCPT TO, with nothing in between that ends
    the transaction. -/
theorem startData_completeTransaction (g : Globals) {h : SessionHistory} {s : Option Connection}
    (reaches : (session g).Reaches (smtpStart g) dataInSequence h s) (t : Turn)
    (ok : dataInSequence h s t) (started : .startData ∈ replies ((session g).step s t).2) :
    CompleteTransaction (seen h) := by
  cases s with
  | none => cases started
  | some conn =>
    obtain ⟨smtp, live, http, inv⟩ := dialogue_invariant TransactionInv
      ⟨by simp, by simp, by simp⟩
      (fun h conn t next smtp http inv ok step => inv.step http step
        (fun parsed => (ok (commandFor_of_parsed smtp parsed)).1))
      reaches conn rfl
    obtain ⟨data, -⟩ := (serveConnection_dialogue g t smtp live).of_startData started
    obtain ⟨rcpt, calm⟩ := ok (commandFor_of_parsed smtp data)
    exact inv.complete rcpt calm

/-- The commands of a transaction, in order. -/
def maileyTransaction : List Turn :=
  [.silent,
   .sends (ascii "HELO mail.failey.femail\r\n") (by decide) (by decide),
   .sends (ascii "MAIL FROM:<a@failey>\r\n") (by decide) (by decide),
   .sends (ascii "RCPT TO:<b@mailey>\r\n") (by decide) (by decide)]

theorem startData_completeTransaction_mailey :
    let last := (session maileyGlobals).trace [] maileyConnection maileyTransaction
    .startData ∈ replies ((session maileyGlobals).step last.2 dataTurn).2 ∧
      CompleteTransaction (seen last.1) := by
  intro last
  have admitted : (session maileyGlobals).Admits dataInSequence [] maileyConnection
      maileyTransaction := by
    decide +kernel
  have run := (Machine.Reaches.start maileyConnection_start).trace maileyTransaction admitted
  have started : .startData ∈ replies ((session maileyGlobals).step last.2 dataTurn).2 := by
    decide +kernel
  exact ⟨started, startData_completeTransaction _ run dataTurn (by decide +kernel) started⟩

/-- DATA as the first command of a connection is answered 354. -/
theorem startData_without_transaction :
    ∃ h s, (session maileyGlobals).Reaches (smtpStart maileyGlobals) Machine.anyStep h s ∧
      .startData ∈ replies ((session maileyGlobals).step s dataTurn).2 ∧
      ¬ CompleteTransaction (seen h) := by
  have run := maileyConnection_reaches [.silent]
  refine ⟨_, _, run, by decide +kernel, ?_⟩
  rintro ⟨after, ⟨mail, before, split, accepted, -, -⟩, -⟩
  have none : ∀ o ∈ seen ((session maileyGlobals).trace [] maileyConnection [.silent]).1,
      ¬ o.AcceptsMail := by
    decide +kernel
  exact none mail (by simp [split]) accepted

/-! ## MAIL FROM only from a greeted client -/

/-- A HELO or EHLO has been accepted, and no TLS negotiation has completed since. -/
def GreetedSinceTls (h : List Observed) : Prop :=
  Since (fun o => ¬ o.Secures) (fun o _ => o.Greets) h

instance : DecidablePred GreetedSinceTls := fun h => Since.decidable h

/-- DATA comes from a greeted client. -/
def dataAfterGreeting : SessionHistory → Option Connection → Turn → Prop
  | h, some conn, t => t.commandFor conn = some .data → GreetedSinceTls (seen h)
  | _, none, _ => True

instance : ∀ h s t, Decidable (dataAfterGreeting h s t)
  | _, some _, _ => inferInstanceAs (Decidable (_ → _))
  | _, none, _ => inferInstanceAs (Decidable True)

/-- The states that a client can only be in after a greeting. -/
def ConnectionState.Greeted (s : ConnectionState) : Prop :=
  s = .mailGreeted ∨ s = .mailMailing ∨ s = .mailRcpt ∨ s = .mailExpectData

instance : DecidablePred ConnectionState.Greeted := fun _ => inferInstanceAs (Decidable (_ ∨ _))

/-- The step of the command switch: a greeted state is entered from a greeted one,
    by an accepted greeting, or by DATA. -/
theorem CommandMove.greeted {s next : ConnectionState} {verb : SMTPCommand} {sent : List Reply}
    (http : s ≠ .httpOpened) (opened : s ≠ .mailOpened) (negotiating : s ≠ .mailExpectTlsNeg)
    (move : CommandMove s verb sent (some next)) (greeted : next.Greeted) :
    s.Greeted ∨ verb = .data ∨ .acceptHello ∈ sent ∨ .acceptEhello ∈ sent := by
  generalize target : some next = next' at move
  cases move with
  | quit => cases target
  | noop | help | unimplemented | helloTooLong | mailSequence | rcptSequence =>
    cases target
    exact Or.inl greeted
  | hello _ _ kind =>
    obtain ⟨-, rfl⟩ | ⟨-, rfl⟩ := kind
    · exact Or.inr (Or.inr (Or.inl List.mem_cons_self))
    · exact Or.inr (Or.inr (Or.inr List.mem_cons_self))
  | data => exact Or.inr (Or.inl rfl)
  | rset =>
    cases target
    by_cases same : s = .mailGreeted
    · exact Or.inl (Or.inl same)
    · rw [if_neg same] at greeted
      exact absurd greeted (by decide)
  | mail any =>
    -- of the states a command is read in, only EXPECT_ANY is not greeted
    left
    cases s <;> first | decide | contradiction
  | rcpt inside =>
    left
    obtain rfl | rfl := inside
    · decide
    · decide
  | starttls =>
    cases target
    exact absurd greeted (by decide)

/-- The step of the invariant: in a greeted state there has been a greeting since
    the last completed negotiation. -/
theorem DialogueStep.greeted {h : List Observed} {s next : ConnectionState} {o : Observed}
    (step : DialogueStep s o (some next)) (http : s ≠ .httpOpened)
    (inv : s.Greeted → GreetedSinceTls h) (data : some .data ∈ o.parsed → GreetedSinceTls h)
    (greeted : next.Greeted) : GreetedSinceTls (o :: h) := by
  generalize target : some next = next' at step
  cases step with
  | tooLong | noMemory => cases target
  | opened | negotiated | tooLarge =>
    cases target
    exact absurd greeted (by decide)
  | negotiating _ _ state _ kind =>
    subst target
    obtain rfl : next = s := by simpa using kind
    rw [state] at greeted
    exact absurd greeted (by decide)
  | noData _ kind =>
    subst target
    obtain rfl : next = s := by simpa using kind
    exact Or.inr ⟨by simp [Observed.Secures], inv greeted⟩
  -- the end of a message sets GREETED, from a data phase that was greeted already
  | dataEnd _ state =>
    exact Or.inr ⟨by simp [Observed.Secures], inv (by rw [state]; decide)⟩
  | dataMore | unrecognized =>
    cases target
    exact Or.inr ⟨by simp [Observed.Secures], inv greeted⟩
  | command bytes verb sent _ opened negotiating _ move =>
    subst target
    have plain : ¬ (⟨bytes, [some verb], sent, []⟩ : Observed).Secures := by
      simp [Observed.Secures]
    obtain before | rfl | greets := move.greeted http opened negotiating greeted
    · exact Or.inr ⟨plain, inv before⟩
    · exact Or.inr ⟨plain, data List.mem_cons_self⟩
    · exact Or.inl greets

/-- MAIL FROM is answered 250 in greeted states only. -/
theorem DialogueStep.greeted_of_acceptsMail {s : ConnectionState} {o : Observed}
    {next : Option ConnectionState} (step : DialogueStep s o next) (http : s ≠ .httpOpened)
    (accepts : o.AcceptsMail) : s.Greeted := by
  cases step with
  | command _ _ _ _ opened negotiating other move =>
    cases move with
    | mail any => cases s <;> first | decide | contradiction
    | unimplemented _ kind | helloTooLong _ kind =>
      rcases kind with rfl | rfl <;> simp [Observed.AcceptsMail] at accepts
    | hello _ _ kind => rcases kind with ⟨rfl, -⟩ | ⟨rfl, -⟩ <;> simp [Observed.AcceptsMail] at accepts
    | _ => simp [Observed.AcceptsMail] at accepts
  | _ => simp [Observed.AcceptsMail] at accepts

/-- **MAIL FROM only from a greeted client.**  In every run of an SMTP connection in
    which DATA comes from a greeted client only, a MAIL FROM answered 250 follows a
    HELO or EHLO accepted since the last completed TLS negotiation. -/
theorem acceptsMail_greetedSinceTls (g : Globals) {h : SessionHistory} {s : Option Connection}
    (reaches : (session g).Reaches (smtpStart g) dataAfterGreeting h s) (t : Turn)
    (accepts : (observe ((session g).step s t).2).AcceptsMail) : GreetedSinceTls (seen h) := by
  cases s with
  | none => simp [session, Observed.AcceptsMail] at accepts
  | some conn =>
    obtain ⟨smtp, live, http, inv⟩ :=
      dialogue_invariant (fun h s => s.Greeted → GreetedSinceTls h)
        (fun greeted => absurd greeted (by decide))
        (fun h conn t next smtp http inv ok step => step.greeted http inv
          (fun parsed => ok (commandFor_of_parsed smtp parsed)))
        reaches conn rfl
    exact inv ((serveConnection_dialogue g t smtp live).greeted_of_acceptsMail http accepts)

def mailTurn : Turn := .sends (ascii "MAIL FROM:<a@failey>\r\n") (by decide) (by decide)

theorem acceptsMail_greetedSinceTls_mailey :
    let last := (session maileyGlobals).trace [] maileyConnection (maileyTransaction.take 2)
    (observe ((session maileyGlobals).step last.2 mailTurn).2).AcceptsMail ∧
      GreetedSinceTls (seen last.1) := by
  intro last
  have admitted : (session maileyGlobals).Admits dataAfterGreeting [] maileyConnection
      (maileyTransaction.take 2) := by
    decide +kernel
  have run := (Machine.Reaches.start maileyConnection_start).trace _ admitted
  have accepts : (observe ((session maileyGlobals).step last.2 mailTurn).2).AcceptsMail := by
    decide +kernel
  exact ⟨accepts, acceptsMail_greetedSinceTls _ run mailTurn accepts⟩

/-- An empty message greets the client: MAIL FROM is accepted after DATA and a
    message, with no HELO or EHLO at all. -/
theorem acceptsMail_after_message :
    ∃ h s, (session maileyGlobals).Reaches (smtpStart maileyGlobals) Machine.anyStep h s ∧
      (observe ((session maileyGlobals).step s mailTurn).2).AcceptsMail ∧
      ¬ GreetedSinceTls (seen h) := by
  have run := (Machine.Reaches.start maileyConnection_start).trace
    [.silent, dataTurn, .sends crlfDotCrlf (by decide) (by decide)]
    (Machine.admits_anyStep (session maileyGlobals) _ _ _)
  exact ⟨_, _, run, by decide +kernel, by decide +kernel⟩

end Femail
