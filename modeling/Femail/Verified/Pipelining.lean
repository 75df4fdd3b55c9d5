import Femail.Verified.Talk

/-! # Commands behind a command

One read is one command, however many lines it brings: `smtp_handler` parses the start of
its buffer, answers, and forgets the rest.  `rest_of_read_ignored` says that what stands
behind the first line of a read outside a message is never looked at, so that a client
which sends its commands together is answered as if it had sent the first of each read.
-/

namespace Femail

open Foundation

/-! ## The first line of a read -/

def inLine (b : Byte) : Bool := b ≠ 13 && b ≠ 10

/-- What a read brings in front of its first line end. -/
def firstLine (bytes : List Byte) : List Byte := bytes.takeWhile inLine

theorem inLine_toLower (b : Byte) : inLine (toLower b) = inLine b := by
  unfold toLower
  split
  · rename_i upper
    obtain ⟨low, high⟩ := upper
    have inside : 65 ≤ b.toNat ∧ b.toNat ≤ 90 := ⟨low, high⟩
    have sum : (b + 32).toNat = (b.toNat + 32) % 256 := UInt8.toNat_add b 32
    have letter : ∀ c : Byte, 65 ≤ c.toNat → inLine c = true := by
      intro c large
      simp only [inLine, Bool.and_eq_true, decide_eq_true_eq]
      refine ⟨?_, ?_⟩ <;> rintro rfl <;> exact absurd large (by decide)
    rw [letter b inside.1, letter (b + 32) (by omega)]
  · rfl

/-- A line end is in no command. -/
theorem inLine_text (verb : SMTPCommand) : ∀ b ∈ verb.text, inLine b = true := by
  have all : verb.text.all inLine = true := by cases verb <;> rfl
  exact List.all_eq_true.mp all

/-- The line of a command is its text and the rest of the line. -/
theorem firstLine_of_begins {bytes : List Byte} {verb : SMTPCommand} (begins : Begins bytes verb.text) :
    firstLine bytes = bytes.take verb.text.length ++ firstLine (bytes.drop verb.text.length) :=
  begins.takeWhile inLine_toLower (inLine_text verb)

theorem begins_firstLine {bytes : List Byte} {verb : SMTPCommand} :
    Begins (firstLine bytes) verb.text ↔ Begins bytes verb.text := by
  constructor
  · intro begins
    -- the line is the first part of the read
    obtain ⟨rest, whole⟩ : firstLine bytes <+: bytes := List.takeWhile_prefix _
    unfold Begins
    rw [← whole, List.take_append_of_le_length begins.length_le]
    exact begins
  · intro begins
    unfold Begins
    rw [firstLine_of_begins begins,
      List.take_append_of_le_length (Nat.le_of_eq begins.length_take.symm),
      List.take_take, Nat.min_self]
    exact begins

theorem commandOf_firstLine (bytes : List Byte) : commandOf (firstLine bytes) = commandOf bytes := by
  unfold commandOf
  congr 1
  funext verb
  exact decide_eq_decide.mpr begins_firstLine

/-- A word ends at a line end at the latest. -/
theorem firstWord_firstLine (bytes : List Byte) : firstWord (firstLine bytes) = firstWord bytes := by
  induction bytes with
  | nil => rfl
  | cons b bytes ih =>
    cases line : inLine b with
    | true =>
      have more : firstLine (b :: bytes) = b :: firstLine bytes := List.takeWhile_cons_of_pos line
      rw [more]
      cases ends : endsWord b with
      | true => rw [firstWord_cons_end ends, firstWord_cons_end ends]
      | false => rw [firstWord_cons_char ends, firstWord_cons_char ends, ih]
    | false =>
      have none' : firstLine (b :: bytes) = [] := List.takeWhile_cons_of_neg (by simp [line])
      have ends : endsWord b = true := by
        simp only [inLine, Bool.and_eq_false_iff, decide_eq_false_iff_not, not_not] at line
        obtain rfl | rfl := line <;> decide
      rw [none', firstWord_cons_end ends]
      rfl

theorem greetingName_firstLine {bytes : List Byte} {verb : SMTPCommand}
    (hello : verb = .helo ∨ verb = .ehlo) (begins : Begins bytes verb.text) :
    greetingName (firstLine bytes) = greetingName bytes := by
  have five : verb.text.length = 5 := by
    obtain rfl | rfl := hello <;> rfl
  have length := begins.length_take
  have line := firstLine_of_begins begins
  rw [five] at length line
  have behind : (firstLine bytes).drop 5 = firstLine (bytes.drop 5) := by
    rw [line, List.drop_append, length, List.drop_eq_nil_of_le (Nat.le_of_eq length)]
    rfl
  rw [greetingName, greetingName, behind, firstWord_firstLine]

/-! ## One turn -/

/-- Two reads that a connection outside a message cannot tell apart. -/
def Arrival.SameLine : Arrival → Arrival → Prop
  | .bytes read, .bytes read' =>
    (smallBufferSize - 1 ≤ read.length ↔ smallBufferSize - 1 ≤ read'.length) ∧
      firstLine read = firstLine read'
  | arrival, arrival' => arrival = arrival'

instance : ∀ arrival arrival', Decidable (Arrival.SameLine arrival arrival')
  | .bytes _, .bytes _ => inferInstanceAs (Decidable (_ ∧ _))
  | .bytes _, .later => inferInstanceAs (Decidable (_ = _))
  | .bytes _, .ended => inferInstanceAs (Decidable (_ = _))
  | .later, _ => inferInstanceAs (Decidable (_ = _))
  | .ended, _ => inferInstanceAs (Decidable (_ = _))

/-- Two turns that differ behind the first line of what is read, if that is no message
    text, and in nothing else the connection looks at. -/
structure Happening.SameCommand (phase : ConnectionState) (happens happens' : Happening) : Prop where
  arrival : if phase = .mailExpectData then happens.arrival = happens'.arrival
    else happens.arrival.SameLine happens'.arrival
  handshake : happens.handshake = happens'.handshake
  memory : happens.memory = happens'.memory
  object : happens.object = happens'.object

instance (phase : ConnectionState) (happens happens' : Happening) :
    Decidable (happens.SameCommand phase happens') :=
  decidable_of_iff ((if phase = .mailExpectData then happens.arrival = happens'.arrival
      else happens.arrival.SameLine happens'.arrival) ∧ happens.handshake = happens'.handshake ∧
      happens.memory = happens'.memory ∧ happens.object = happens'.object)
    ⟨fun ⟨a, b, c, d⟩ => ⟨a, b, c, d⟩, fun ⟨a, b, c, d⟩ => ⟨a, b, c, d⟩⟩

theorem commandOf_begins {bytes : List Byte} {verb : SMTPCommand} (found : commandOf bytes = some verb) :
    Begins bytes verb.text := by
  simpa using List.find?_some found

/-- A name is looked at only behind HELO and EHLO. -/
theorem command_firstLine (talk : Talk) (object : Bool) {bytes : List Byte} {verb : SMTPCommand}
    (found : commandOf bytes = some verb) :
    talk.command object (firstLine bytes) verb = talk.command object bytes verb := by
  have begins := commandOf_begins found
  cases verb with
  | helo => simp only [Talk.command, Talk.hello, greetingName_firstLine (Or.inl rfl) begins]
  | ehlo => simp only [Talk.command, Talk.hello, greetingName_firstLine (Or.inr rfl) begins]
  | _ => rfl

theorem line_of_sameLine (talk : Talk) (object : Bool) {bytes bytes' : List Byte}
    (length : smallBufferSize - 1 ≤ bytes.length ↔ smallBufferSize - 1 ≤ bytes'.length)
    (same : firstLine bytes = firstLine bytes') :
    talk.line object bytes = talk.line object bytes' := by
  unfold Talk.line
  by_cases long : smallBufferSize - 1 ≤ bytes.length
  · rw [if_pos long, if_pos (length.mp long)]
  · rw [if_neg long, if_neg (fun long' => long (length.mpr long'))]
    have commands : commandOf bytes = commandOf bytes' := by
      rw [← commandOf_firstLine, same, commandOf_firstLine]
    cases found : commandOf bytes with
    | none => rw [← commands, found]
    | some verb =>
      have found' : commandOf bytes' = some verb := commands ▸ found
      rw [found']
      calc talk.command object bytes verb
        _ = talk.command object (firstLine bytes) verb := (command_firstLine talk object found).symm
        _ = talk.command object bytes' verb := by rw [same, command_firstLine talk object found']

theorem step_of_sameCommand (talk : Talk) {happens happens' : Happening}
    (same : happens.SameCommand talk.phase happens') : talk.step happens = talk.step happens' := by
  obtain ⟨arrival, handshake, memory, object⟩ := same
  unfold Talk.step
  rw [handshake, memory, object]
  by_cases data : talk.phase = .mailExpectData
  · rw [if_pos data] at arrival
    rw [arrival]
  · rw [if_neg data] at arrival
    -- outside a message a read counts up to its first line end
    have line : ∀ bytes bytes', happens.arrival = .bytes bytes → happens'.arrival = .bytes bytes' →
        talk.line happens'.object bytes = talk.line happens'.object bytes' := by
      intro bytes bytes' here there
      rw [here, there] at arrival
      exact line_of_sameLine talk _ arrival.1 arrival.2
    cases here : happens.arrival with
    | bytes bytes =>
      cases there : happens'.arrival with
      | bytes bytes' =>
        have answered := line bytes bytes' here there
        cases phase : talk.phase with
        | mailExpectData => exact absurd phase data
        | _ => simp [answered]
      | later | ended =>
        rw [here, there] at arrival
        cases arrival
    | later | ended =>
      rw [here] at arrival
      rw [show happens'.arrival = _ from arrival.symm]

/-! ## Whole runs -/

/-- Two sequences of turns that differ, for the connection, only behind the first lines of
    its commands. -/
def SameCommands (g : Globals) : Option Connection → List Turn → List Turn → Prop
  | _, [], [] => True
  | s, t :: turns, t' :: turns' =>
    (∀ conn ∈ s, (t.happening g).SameCommand conn.state (t'.happening g)) ∧
      SameCommands g ((session g).step s t).1 turns turns'
  | _, _, _ => False

instance SameCommands.decidable (g : Globals) :
    ∀ s turns turns', Decidable (SameCommands g s turns turns')
  | _, [], [] => .isTrue trivial
  | s, t :: turns, t' :: turns' =>
    have : Decidable (SameCommands g ((session g).step s t).1 turns turns') :=
      SameCommands.decidable g _ turns turns'
    inferInstanceAs (Decidable
      ((∀ conn ∈ s, (t.happening g).SameCommand conn.state (t'.happening g)) ∧ _))
  | _, [], _ :: _ => .isFalse id
  | _, _ :: _, [] => .isFalse id

/-- Two records about one abstract connection go on alike. -/
theorem run_of_sameCommands (g : Globals) {s s' : Option Connection} {abstract : Option Talk}
    (of : Option.Rel Talk.Of s abstract) (of' : Option.Rel Talk.Of s' abstract)
    {turns turns' : List Turn} (same : SameCommands g s turns turns') :
    ((session g).run s turns).1.map heard = ((session g).run s' turns').1.map heard ∧
      ∃ last, Option.Rel Talk.Of ((session g).run s turns).2 last ∧
        Option.Rel Talk.Of ((session g).run s' turns').2 last := by
  induction turns generalizing turns' s s' abstract with
  | nil =>
    cases turns' with
    | nil => exact ⟨rfl, abstract, of, of'⟩
    | cons => exact same.elim
  | cons t turns ih =>
    cases turns' with
    | nil => exact same.elim
    | cons t' turns' =>
      obtain ⟨here, later⟩ := same
      obtain ⟨said, next⟩ := refines_run g of [t]
      obtain ⟨said', next'⟩ := refines_run g of' [t']
      -- the abstract connection makes one step of the two turns
      have step : (talk.run abstract [t'.happening g]) = talk.run abstract [t.happening g] := by
        cases of with
        | none => rfl
        | @some conn talk of =>
          have alike := here conn rfl
          rw [← of.phase] at alike
          simp only [Machine.run, Femail.talk, step_of_sameCommand talk alike]
      rw [List.map_cons, List.map_nil, step] at said' next'
      have first : heard ((session g).step s t).2 = heard ((session g).step s' t').2 :=
        List.head_eq_of_cons_eq (said.trans said'.symm)
      obtain ⟨rest, last⟩ := ih next next' later
      refine ⟨?_, last⟩
      rw [Machine.run, Machine.run, List.map_cons, List.map_cons, first]
      exact congrArg _ rest

/-- **What stands behind a command in its read is never looked at.**  Take any two sequences
    of turns for a new SMTP connection, of any length and with any outcomes, that differ only
    in what the reads outside a message bring behind their first line: it sends the same
    replies in the same turns, in clear or under TLS, and ends in the same phase with the
    same message. -/
theorem rest_of_read_ignored (g : Globals) {conn : Connection} (start : smtpStart g (some conn))
    {turns turns' : List Turn} (same : SameCommands g (some conn) turns turns') :
    ((session g).run (some conn) turns).1.map heard =
        ((session g).run (some conn) turns').1.map heard ∧
      ∃ last, Option.Rel Talk.Of ((session g).run (some conn) turns).2 last ∧
        Option.Rel Talk.Of ((session g).run (some conn) turns').2 last :=
  run_of_sameCommands g (.some (talkOf_start start)) (.some (talkOf_start start)) same

/-- A client that sends its whole transaction in one read. -/
def pipelinedTurn : Turn :=
  .sends (ascii "MAIL FROM:<a@failey>\r\nRCPT TO:<c@mailey>\r\nDATA\r\n") (by decide) (by decide)

theorem rest_of_read_ignored_mailey :
    ((session maileyGlobals).run maileyConnection [.silent, ehloTurn, pipelinedTurn, dataTurn]).1.map
        heard =
      ((session maileyGlobals).run maileyConnection [.silent, ehloTurn, mailTurn, dataTurn]).1.map heard := by
  have same : SameCommands maileyGlobals maileyConnection [.silent, ehloTurn, pipelinedTurn, dataTurn]
      [.silent, ehloTurn, mailTurn, dataTurn] := by
    decide +kernel
  exact (rest_of_read_ignored maileyGlobals maileyConnection_start same).1

end Femail
