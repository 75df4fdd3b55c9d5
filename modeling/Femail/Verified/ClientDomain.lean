import Femail.Verified.Dialogue
import Femail.Verified.Replies

/-! # The client's domain

`move_client_mail_domain` tests its limit in front of every character but not in
front of the NUL, and what it has stored when it gives up stays in the record.  The
first makes the name of just `domainMaxSize` bytes overrun the array; the second makes
a refused HELO or EHLO change the connection.
-/

namespace Femail

open Foundation

/-! ## In bounds -/

theorem storesFrom_inside {max : Nat} (bytes : List Byte) {offset : Nat} (bound : offset ≤ max) :
    (∀ store ∈ storesFrom offset bytes, store.1 < max) ↔ offset + bytes.length ≤ max := by
  induction bytes generalizing offset with
  | nil => simpa [storesFrom] using bound
  | cons b bytes ih =>
    rw [storesFrom, List.forall_mem_cons, List.length_cons]
    by_cases inside : offset < max
    · have next := @ih (offset + 1) inside
      rw [Nat.add_right_comm, Nat.add_assoc] at next
      exact (and_iff_right inside).trans next
    · exact iff_of_false (fun both => inside both.1) (by omega)

/-- Every store of the loop is below `max` unless the name ends there: the NUL is the one
    store that no test stands in front of. -/
theorem moveClientMailDomainLoop_inside {max : Nat} (param : List Byte) {offset : Nat}
    (bound : offset ≤ max) :
    (∀ store ∈ (moveClientMailDomainLoop max param offset).2, store.1 < max) ↔
      offset + (firstWord param).length ≠ max := by
  rw [moveClientMailDomainLoop_eq param bound]
  split
  · rw [storesFrom_inside _ bound, List.length_append, List.length_singleton]
    omega
  · rw [storesFrom_inside _ bound, List.length_take]
    omega

/-- The array, without the byte behind it. -/
def Connection.domainArray (conn : Connection) : List Byte :=
  conn.mailclientdomain.toList.take domainMaxSize

/-- The name of `param` is stored in the array, and exactly there. -/
structure StoresDomain (param : List Byte) (conn : Connection) : Prop where
  inside : ∀ store ∈ (moveClientMailDomainLoop domainMaxSize param 0).2, store.1 < domainMaxSize
  stored : (moveClientMailDomain param conn domainMaxSize).1 = 0 ↔
    (firstWord param ++ [0]).length ≤ domainMaxSize
  holds : (moveClientMailDomain param conn domainMaxSize).1 = 0 →
    firstWord param ++ [0] <+: (moveClientMailDomain param conn domainMaxSize).2.domainArray

/-- **The client's domain.**  The name is stored in bounds and exactly unless it is as
    long as the array. -/
theorem storesDomain_iff (param : List Byte) (conn : Connection) :
    StoresDomain param conn ↔ (firstWord param).length ≠ domainMaxSize := by
  have inside := moveClientMailDomainLoop_inside param (Nat.zero_le domainMaxSize)
  have moved := moveClientMailDomainLoop_result param (Nat.zero_le domainMaxSize)
  rw [Nat.zero_add] at inside moved
  constructor
  · intro stores
    exact inside.mp stores.inside
  · intro other
    have result : (moveClientMailDomain param conn domainMaxSize).1 = 0 ↔
        (firstWord param ++ [0]).length ≤ domainMaxSize := by
      rw [List.length_append, List.length_singleton]
      exact moved.trans ⟨fun fits => Nat.lt_of_le_of_ne fits other, Nat.le_of_succ_le⟩
    refine ⟨inside.mpr other, result, ?_⟩
    intro success
    have short := result.mp success
    have fits : 0 + (firstWord param).length ≤ domainMaxSize := by
      rw [Nat.zero_add]
      exact moved.mp success
    have field : (moveClientMailDomain param conn domainMaxSize).2.mailclientdomain.toList =
        overwrite conn.mailclientdomain.toList 0 (firstWord param ++ [0]) :=
      applyStores_moveClientMailDomainLoop param conn.mailclientdomain (Nat.zero_le _) (by decide) fits
    rw [Connection.domainArray, field, overwrite, List.take_zero, List.nil_append,
      List.take_append, List.take_of_length_le short]
    exact List.prefix_append _ _

/-- A name of 255 bytes is accepted, and its NUL is stored behind the array. -/
theorem domain_overruns_array :
    let param := List.replicate 255 (97 : Byte)
    ¬ StoresDomain param Connection.zero ∧
      (moveClientMailDomain param Connection.zero domainMaxSize).1 = 0 ∧
      (255, 0) ∈ (moveClientMailDomainLoop domainMaxSize param 0).2 := by
  intro param
  have outside : (255, 0) ∈ (moveClientMailDomainLoop domainMaxSize param 0).2 := by decide +kernel
  refine ⟨?_, by decide +kernel, outside⟩
  intro stores
  exact absurd (stores.inside _ outside) (by decide)

/-! ## Refused names -/

/-- A loop that gives up leaves what it has stored by then. -/
theorem applyStores_of_tooLong {max : Nat} (param : List Byte) {offset : Nat}
    (field : Vector Byte mailclientdomainRoom) (bound : offset ≤ max)
    (room : max ≤ mailclientdomainRoom) (long : max < offset + (firstWord param).length) :
    (applyStores field (moveClientMailDomainLoop max param offset).2).toList =
      overwrite field.toList offset ((firstWord param).take (max - offset)) := by
  rw [moveClientMailDomainLoop_eq param bound, if_neg (Nat.not_le.mpr long)]
  apply applyStores_storesFrom
  rw [List.length_take]
  omega

/-- A refused name leaves the record as it was exactly when the array held its first
    bytes already. -/
theorem moveClientMailDomain_eq_iff {param : List Byte} (conn : Connection)
    (long : domainMaxSize < (firstWord param).length) :
    (moveClientMailDomain param conn domainMaxSize).2 = conn ↔
      (firstWord param).take domainMaxSize = conn.domainArray := by
  have field : (moveClientMailDomain param conn domainMaxSize).2.mailclientdomain.toList =
      overwrite conn.mailclientdomain.toList 0 ((firstWord param).take domainMaxSize) :=
    applyStores_of_tooLong param conn.mailclientdomain (Nat.zero_le _) (by decide)
      (by rw [Nat.zero_add]; exact long)
  have filled : ((firstWord param).take domainMaxSize).length = domainMaxSize :=
    List.length_take_of_le (Nat.le_of_lt long)
  have record : (moveClientMailDomain param conn domainMaxSize).2 = conn ↔
      (moveClientMailDomain param conn domainMaxSize).2.mailclientdomain.toList =
        conn.mailclientdomain.toList := by
    rw [Vector.toList_inj]
    constructor
    · intro same
      rw [same]
    · intro same
      have only : (moveClientMailDomain param conn domainMaxSize).2 =
          { conn with
            mailclientdomain :=
              (moveClientMailDomain param conn domainMaxSize).2.mailclientdomain } := rfl
      rw [only, same]
  rw [record, field, overwrite, List.take_zero, List.nil_append, Nat.zero_add, filled,
    Connection.domainArray]
  conv_lhs => rhs; rw [← List.take_append_drop domainMaxSize conn.mailclientdomain.toList]
  exact List.append_left_inj _

/-! ## Refusals -/

/-- The replies that refuse a command. -/
def Reply.refuses : Reply → Bool
  | .rejectUnrecognized => true
  | .rejectTooLong => true
  | .rejectUnimplemented => true
  | .rejectSequence => true
  | _ => false

/-- A call that refuses a command and goes on leaves the record as it was. -/
def RefusalKeeps (conn : Connection) (handled : Handled) : Prop :=
  (∃ reply ∈ replies handled.events, reply.refuses = true) → handled.result = .continue →
    handled.conn = conn

/-- The name that a HELO or EHLO brings to a connection. -/
def Turn.helloName (t : Turn) (conn : Connection) : Option (List Byte) :=
  match t.recv with
  | .data chunk =>
    if t.commandFor conn = some .helo ∨ t.commandFor conn = some .ehlo then
      (parseClientCommand (readBuffer chunk)).map fun command => firstWord (command.param.getD [])
    else none
  | _ => none

/-- A name too long for the array that a turn brings begins with what the array holds. -/
def Turn.RepeatsName (t : Turn) (conn : Connection) : Prop :=
  ∀ name ∈ t.helloName conn, domainMaxSize < name.length →
    name.take domainMaxSize = conn.domainArray

theorem refusalKeeps_smtpHandleHello (g : Globals) (t : Turn) (conn : Connection)
    (param : List Byte) {accept : Reply} (accepts : accept.refuses = false) :
    RefusalKeeps conn (smtpHandleHello g t conn param accept) ↔
      (domainMaxSize < (firstWord param).length →
        (firstWord param).take domainMaxSize = conn.domainArray) := by
  have moved := moveClientMailDomainLoop_result param (Nat.zero_le domainMaxSize)
  rw [Nat.zero_add] at moved
  have result : (moveClientMailDomain param conn domainMaxSize).1 = 0 ↔
      (firstWord param).length ≤ domainMaxSize := moved
  have unchanged := @moveClientMailDomain_eq_iff param conn
  unfold RefusalKeeps smtpHandleHello
  generalize moveClientMailDomain param conn domainMaxSize = outcome at result unchanged
  obtain ⟨code, stored⟩ := outcome
  dsimp only at result unchanged ⊢
  by_cases long : domainMaxSize < (firstWord param).length
  · have failed : code ≠ 0 := fun success => absurd (result.mp success) (Nat.not_le.mpr long)
    simp only [if_pos failed, replies_smtpSendMsg, List.mem_singleton, exists_eq_left,
      Reply.refuses, true_imp_iff, long]
    exact unchanged long
  · have success : code = 0 := result.mpr (Nat.le_of_not_lt long)
    simp [success, accepts, long]

/-- The other commands are refused before they write to the record. -/
theorem CommandStep.conn_of_refusal {g : Globals} {t : Turn} {conn : Connection}
    {verb : SMTPCommand} {handled : Handled} (step : CommandStep g t conn verb handled)
    (other : ¬ (verb = .helo ∨ verb = .ehlo)) : RefusalKeeps conn handled := by
  rintro ⟨reply, sent, refuses⟩ -
  cases step with
  | noop | quit | rset | help | unimplemented | mailSequence | rcptSequence => rfl
  | helloTooLong _ _ kind => exact absurd kind other
  | hello _ _ _ kind => exact absurd (kind.imp And.left And.left) other
  | data | mail | rcpt =>
    -- what writes to the record is accepted
    rw [replies_smtpSendMsg, List.mem_singleton] at sent
    subst sent
    cases refuses
  | starttls =>
    rw [replies_append, replies_smtpSendMsg] at sent
    obtain rfl : reply = .acceptStarttls := by simpa [Event.reply?] using sent
    cases refuses

theorem helloName_eq_none {t : Turn} {conn : Connection}
    (other : ¬ (t.commandFor conn = some .helo ∨ t.commandFor conn = some .ehlo)) :
    t.helloName conn = none := by
  unfold Turn.helloName
  cases t.recv with
  | fail | eof => rfl
  | data => exact if_neg other

/-- A call that brings a HELO or EHLO, and the name behind it. -/
theorem smtpHandler_of_hello (g : Globals) {t : Turn} {conn : Connection} {verb : SMTPCommand}
    (brings : t.commandFor conn = some verb) (hello : verb = .helo ∨ verb = .ehlo) :
    ∃ buffer param accept,
      (verb = .helo ∧ accept = .acceptHello ∨ verb = .ehlo ∧ accept = .acceptEhello) ∧
      t.helloName conn = some (firstWord param) ∧
      smtpHandler g t conn =
        { smtpHandleHello g t conn param accept with
          events := smtpReceiveMsg t conn :: .parseClientCommand buffer (some verb) ::
            (smtpHandleHello g t conn param accept).events } := by
  obtain ⟨chunk, param, reading, got, other, short, parsed⟩ := exists_of_commandFor brings
  have name : t.helloName conn = some (firstWord (param.getD [])) := by
    unfold Turn.helloName
    rw [got, brings]
    dsimp only
    rw [if_pos (hello.imp (congrArg some) (congrArg some)), parsed]
    rfl
  have handled := smtpHandler_of_command g reading other got short
  rw [parsed] at handled
  obtain rfl | rfl := hello
  · exact ⟨_, _, .acceptHello, Or.inl ⟨rfl, rfl⟩, name, handled⟩
  · exact ⟨_, _, .acceptEhello, Or.inr ⟨rfl, rfl⟩, name, handled⟩

/-- The calls in front of a command's own send no reply. -/
theorem refusalKeeps_behind {t : Turn} {conn : Connection} {handled : Handled}
    {buffer : List Byte} {parsed : Option SMTPCommand} :
    RefusalKeeps conn { handled with
      events := smtpReceiveMsg t conn :: .parseClientCommand buffer parsed :: handled.events } ↔
        RefusalKeeps conn handled := by
  unfold RefusalKeeps
  rw [replies_cons, reply?_smtpReceiveMsg, replies_cons]
  rfl

/-- A HELO or EHLO. -/
theorem refusalKeeps_hello {g : Globals} {t : Turn} {conn : Connection} {verb : SMTPCommand}
    (brings : t.commandFor conn = some verb) (hello : verb = .helo ∨ verb = .ehlo) :
    RefusalKeeps conn (smtpHandler g t conn) ↔ t.RepeatsName conn := by
  obtain ⟨buffer, param, accept, kind, name, handled⟩ := smtpHandler_of_hello g brings hello
  have accepts : accept.refuses = false := by
    rcases kind with ⟨-, rfl⟩ | ⟨-, rfl⟩ <;> rfl
  rw [handled, refusalKeeps_behind, Turn.RepeatsName, name]
  simp only [Option.mem_some_iff, forall_eq']
  exact refusalKeeps_smtpHandleHello g t conn param accepts

/-- The states in which a command is read. -/
def ConnectionState.TakesCommands (s : ConnectionState) : Prop :=
  s = .mailExpectAny ∨ s = .mailGreeted ∨ s = .mailMailing ∨ s = .mailRcpt

/-- **Refusals.**  In every run of an SMTP connection, a read that is refused in a command
    state changes nothing exactly when it is no HELO or EHLO with a name too long for
    the array, or that name begins with what the array held. -/
theorem refusal_keeps_record_iff (g : Globals) {h : SessionHistory} {conn : Connection}
    (reaches : (session g).Reaches (smtpStart g) Machine.anyStep h (some conn))
    (state : conn.state.TakesCommands) (t : Turn) :
    RefusalKeeps conn (smtpHandler g t conn) ↔ t.RepeatsName conn := by
  obtain ⟨-, live⟩ := smtp_of_reaches reaches
  by_cases hello : t.commandFor conn = some .helo ∨ t.commandFor conn = some .ehlo
  · obtain helo | ehlo := hello
    · exact refusalKeeps_hello helo (Or.inl rfl)
    · exact refusalKeeps_hello ehlo (Or.inr rfl)
  · have nothing := helloName_eq_none hello
    refine iff_of_true ?_ (by simp [Turn.RepeatsName, nothing])
    have step := smtpHandler_step g t conn
    generalize smtpHandler g t conn = handled at step ⊢
    cases step with
    | dead dead =>
      rw [live] at dead
      cases dead
    | opened _ here | tlsDone _ here =>
      rw [here] at state
      exact absurd state (by unfold ConnectionState.TakesCommands; decide)
    | tooLarge _ _ _ here | noMemory _ _ _ here | dataEnd _ _ _ _ here | dataMore _ _ _ _ here =>
      rw [here] at state
      exact absurd state (by unfold ConnectionState.TakesCommands; decide)
    | tlsRetry | noData | unrecognized => exact fun _ _ => rfl
    | tlsFailed | tooLong => exact fun _ continues => nomatch continues
    | command chunk command reading got other short parsed =>
      have brings := commandFor_eq reading got other short parsed
      rw [brings, Option.some_inj, Option.some_inj] at hello
      apply refusalKeeps_behind.mpr
      exact (smtpHandleCommand_step g t conn command).conn_of_refusal hello

theorem refusal_keeps_record_text :
    ∃ h conn, (session maileyGlobals).Reaches (smtpStart maileyGlobals) Machine.anyStep h (some conn) ∧
      conn.state.TakesCommands ∧
      replies (smtpHandler maileyGlobals textTurn conn).events = [.rejectUnrecognized] ∧
      (smtpHandler maileyGlobals textTurn conn).conn = conn := by
  have run := maileyConnection_reaches [.silent]
  refine ⟨_, _, run, Or.inl rfl, by decide +kernel, ?_⟩
  have keeps := (refusal_keeps_record_iff maileyGlobals run (Or.inl rfl) textTurn).mpr
    (by unfold Turn.RepeatsName; decide +kernel)
  exact keeps ⟨.rejectUnrecognized, by decide +kernel, rfl⟩ (by decide +kernel)

/-- A HELO with a name of 256 bytes. -/
def longHeloTurn : Turn :=
  .sends (ascii "HELO " ++ List.replicate 256 97) (by decide +kernel) (by decide +kernel)

/-- The name is refused, and the record is no longer what it was. -/
theorem refused_hello_stores_name :
    ∃ h conn, (session maileyGlobals).Reaches (smtpStart maileyGlobals) Machine.anyStep h (some conn) ∧
      conn.state.TakesCommands ∧
      replies (smtpHandler maileyGlobals longHeloTurn conn).events = [.rejectTooLong] ∧
      ¬ RefusalKeeps conn (smtpHandler maileyGlobals longHeloTurn conn) := by
  have run := maileyConnection_reaches [.silent]
  refine ⟨_, _, run, Or.inl rfl, by decide +kernel, ?_⟩
  rw [refusalKeeps_hello (by decide +kernel : longHeloTurn.commandFor _ = some .helo) (Or.inl rfl)]
  intro repeated
  have stored := repeated (List.replicate 256 97) (by decide +kernel) (by decide +kernel)
  have first := congrArg List.head? stored
  exact absurd first (by decide +kernel)

end Femail
