import Femail.Verified.Verbs

/-! # The dialogue and the segmentation of its bytes

`smtp_handler` parses each read on its own and keeps nothing of it for the next, so
a client is answered by the read and not by the line.  A stream cut into single
bytes gets one refusal per byte (`replies_bytewise`), and no cut gets more than one
reply per read (`length_replies_le`); on every stream of lines the two differ.
-/

namespace Femail

open Foundation

/-! ## Streams and their cuts -/

/-- The most a read in the command phase may bring. -/
def commandReadMax : Nat := smallBufferSize - 2

/-- A line of the client, with its CRLF. -/
structure Line where
  bytes : List Byte
  terminated : ascii "\r\n" <:+ bytes
  short : bytes.length ≤ commandReadMax

theorem Line.two_le_length (line : Line) : 2 ≤ line.bytes.length := line.terminated.length_le

def Line.chunk (line : Line) : Chunk where
  bytes := line.bytes
  nonempty := Nat.lt_of_lt_of_le Nat.two_pos line.two_le_length
  fits := line.short.trans (by decide)

/-- `reads` is a way to cut `stream` into reads. -/
def Cuts (stream : List Byte) (reads : List Chunk) : Prop :=
  reads.flatMap Chunk.bytes = stream ∧ ∀ chunk ∈ reads, chunk.bytes.length ≤ commandReadMax

def stream (lines : List Line) : List Byte := lines.flatMap Line.bytes

/-- The turn that reads `chunk`, with all other outcomes as in `t`. -/
def Turn.reads (t : Turn) (chunk : Chunk) : Turn := { t with recv := .data chunk }

/-- A connection that waits for a command. -/
def Connection.Commanding (conn : Connection) : Prop :=
  conn.type = .smtp ∧ conn.live = true ∧
    (conn.state = .mailExpectAny ∨ conn.state = .mailGreeted ∨ conn.state = .mailMailing ∨
      conn.state = .mailRcpt)

/-- The replies to a sequence of reads, and the connection after it. -/
def converse (g : Globals) (t : Turn) (conn : Connection) (reads : List Chunk) :
    List Reply × Option Connection :=
  let run := (session g).run (some conn) (reads.map t.reads)
  (replies run.1.flatten, run.2)

/-! ## At most one reply per read -/

theorem CommandMove.length_replies {s : ConnectionState} {verb : SMTPCommand} {sent : List Reply}
    {next : Option ConnectionState} (move : CommandMove s verb sent next) : sent.length ≤ 1 := by
  cases move <;> simp

theorem DialogueStep.length_replies {s : ConnectionState} {o : Observed}
    {next : Option ConnectionState} (step : DialogueStep s o next) : o.replies.length ≤ 1 := by
  cases step with
  | command _ _ _ _ _ _ _ move => exact move.length_replies
  | _ => simp

theorem length_replies_le (g : Globals) (turns : List Turn) {conn : Connection}
    (smtp : conn.type = .smtp) (live : conn.live = true) :
    (replies ((session g).run (some conn) turns).1.flatten).length ≤ turns.length := by
  induction turns generalizing conn with
  | nil => simp [Machine.run]
  | cons t turns ih =>
    have step := (serveConnection_dialogue g t smtp live).length_replies
    have one : (replies ((session g).step (some conn) t).2).length ≤ 1 := step
    simp only [Machine.run, List.flatten_cons, replies_append, List.length_append, List.length_cons]
    cases kept : ((session g).step (some conn) t).1 with
    | none =>
      rw [run_session_none]
      simpa using Nat.le_trans one (Nat.le_add_left 1 turns.length)
    | some conn' =>
      obtain ⟨live', type', -⟩ := serveConnection_keeps live kept
      have rest := ih (type'.trans smtp) live'
      omega

/-! ## One refusal per byte -/

/-- A buffer with a single character is no command. -/
theorem parseClientCommand_single (b : Byte) (rest : List Byte) :
    parseClientCommand (b :: 0 :: rest) = none := by
  cases parsed : parseClientCommand (b :: 0 :: rest) with
  | none => rfl
  | some command =>
    have begins := begins_of_parseClientCommand parsed
    generalize command.command = verb at begins
    -- the NUL would be the second of the letters compared
    have long : 2 ≤ verb.text.length := by cases verb <;> decide
    have inside : (0 : Byte) ∈ (b :: 0 :: rest).take verb.text.length := by
      rw [← Nat.sub_add_cancel long, List.take_succ_cons, List.take_succ_cons]
      exact List.mem_cons_of_mem _ List.mem_cons_self
    have folded : toLower 0 ∈ verb.text.map toLower := begins ▸ List.mem_map_of_mem inside
    obtain ⟨c, letter, same⟩ := List.mem_map.mp folded
    have nul : c = 0 := toLower_eq_zero same
    rw [nul] at letter
    exact absurd letter (zero_notMem_text verb)

/-- A read of one byte. -/
def byteChunk (b : Byte) : Chunk := ⟨[b], Nat.one_pos, Nat.le_of_ble_eq_true rfl⟩

theorem readBuffer_byteChunk (b : Byte) : ∃ rest, readBuffer (byteChunk b) = b :: 0 :: rest := by
  refine ⟨List.replicate (smallBufferSize - 2) 0, ?_⟩
  rfl

/-- A connection that waits for a command refuses a single byte and waits on. -/
theorem serveConnection_byte (g : Globals) (t : Turn) (b : Byte) {conn : Connection}
    (commanding : conn.Commanding) :
    (serveConnection g (t.reads (byteChunk b)) conn).1 = some { conn with timerefreshed := t.now } ∧
      replies (serveConnection g (t.reads (byteChunk b)) conn).2 = [.rejectUnrecognized] := by
  obtain ⟨smtp, live, state⟩ := commanding
  obtain ⟨rest, buffer⟩ := readBuffer_byteChunk b
  -- the four states a command is read in
  have reading : conn.Reading ∧ conn.state ≠ .mailExpectData := by
    rw [Connection.Reading, live]
    rcases state with same | same | same | same <;> simp [same]
  have handler := smtpHandler_of_command g reading.1 reading.2
    (show (t.reads (byteChunk b)).recv = _ from rfl) (show 1 < smallBufferSize - 1 by decide)
  rw [buffer, parseClientCommand_single] at handler
  have served := (connectionHandler_smtp g (t.reads (byteChunk b)) smtp).trans handler
  refine ⟨by simp only [serveConnection, served]; rfl, ?_⟩
  have shown := observe_serveConnection g (t.reads (byteChunk b)) conn
  rw [served, observe_smtpReceiveMsg, observe_parseClientCommand, observe_smtpSendMsg] at shown
  exact congrArg Observed.replies shown

theorem replies_bytewise (g : Globals) (t : Turn) (bytes : List Byte) {conn : Connection}
    (commanding : conn.Commanding) :
    (converse g t conn (bytes.map byteChunk)).1 = List.replicate bytes.length .rejectUnrecognized := by
  induction bytes generalizing conn with
  | nil => rfl
  | cons b bytes ih =>
    obtain ⟨kept, refused⟩ := serveConnection_byte g t b commanding
    have step : (session g).step (some conn) (t.reads (byteChunk b)) =
      serveConnection g (t.reads (byteChunk b)) conn := rfl
    have waiting : Connection.Commanding { conn with timerefreshed := t.now } := commanding
    have rest := ih waiting
    simp only [converse, List.map_cons, Machine.run, List.flatten_cons, replies_append, step, kept,
      refused] at rest ⊢
    rw [rest]
    rfl

/-! ## Two cuts of a stream -/

theorem cuts_bytewise (bytes : List Byte) : Cuts bytes (bytes.map byteChunk) := by
  constructor
  · rw [List.flatMap_map]
    exact List.flatMap_singleton' bytes
  · intro chunk mem
    obtain ⟨b, -, rfl⟩ := List.mem_map.mp mem
    exact (by decide : 1 ≤ commandReadMax)

theorem cuts_linewise (lines : List Line) : Cuts (stream lines) (lines.map Line.chunk) := by
  constructor
  · rw [List.flatMap_map]
    rfl
  · intro chunk mem
    obtain ⟨line, -, rfl⟩ := List.mem_map.mp mem
    exact line.short

theorem two_mul_le_length_stream (lines : List Line) : 2 * lines.length ≤ (stream lines).length := by
  induction lines with
  | nil => exact Nat.le_refl 0
  | cons line lines ih =>
    have := line.two_le_length
    simp only [stream, List.flatMap_cons, List.length_append, List.length_cons] at ih ⊢
    omega

/-- **Segmentation.**  The replies to a stream of lines, and the connection after it,
    are the same for every two ways to cut it into reads only if the stream is
    empty. -/
theorem segmentation_independent_iff (g : Globals) (t : Turn) {conn : Connection}
    (commanding : conn.Commanding) (lines : List Line) :
    (∀ reads reads', Cuts (stream lines) reads → Cuts (stream lines) reads' →
      converse g t conn reads = converse g t conn reads') ↔ lines = [] := by
  constructor
  · -- a line has at least two bytes: bytewise it gets more replies than linewise
    intro independent
    have same := independent _ _ (cuts_bytewise (stream lines)) (cuts_linewise lines)
    have bytewise := replies_bytewise g t (stream lines) commanding
    have linewise : (converse g t conn (lines.map Line.chunk)).1.length ≤ lines.length := by
      have bound := length_replies_le g ((lines.map Line.chunk).map t.reads) commanding.1
        commanding.2.1
      rw [List.length_map, List.length_map] at bound
      exact bound
    rw [← same, bytewise, List.length_replicate] at linewise
    have long := two_mul_le_length_stream lines
    exact List.eq_nil_of_length_eq_zero (by omega)
  · rintro rfl reads reads' ⟨whole, -⟩ ⟨whole', -⟩
    have nothing : ∀ {reads : List Chunk}, reads.flatMap Chunk.bytes = stream [] → reads = [] := by
      intro reads whole
      cases reads with
      | nil => rfl
      | cons chunk reads =>
        have empty : chunk.bytes = [] := (List.append_eq_nil_iff.mp whole).1
        exact absurd empty (List.ne_nil_of_length_pos chunk.nonempty)
    rw [nothing whole, nothing whole']

def noopLine : Line := ⟨ascii "NOOP\r\n", by decide, by decide⟩

/-- A connection that has been greeted by the server. -/
def waitingConnection : Connection :=
  { Connection.zero with live := true, state := .mailExpectAny, clientsocket := 5 }

theorem waitingConnection_commanding : waitingConnection.Commanding :=
  ⟨rfl, rfl, Or.inl rfl⟩

theorem segmentation_independent_noop :
    waitingConnection.Commanding ∧
    ¬ ∀ reads reads', Cuts (stream [noopLine]) reads → Cuts (stream [noopLine]) reads' →
      converse maileyGlobals .silent waitingConnection reads =
        converse maileyGlobals .silent waitingConnection reads' := by
  refine ⟨waitingConnection_commanding, ?_⟩
  rw [segmentation_independent_iff maileyGlobals .silent waitingConnection_commanding]
  exact List.cons_ne_nil _ _

/-- NOOP in one read is accepted without a reply; cut after two bytes it is refused
    twice. -/
theorem noop_cut_refused :
    let whole := [noopLine.chunk]
    let cut : List Chunk :=
      [⟨ascii "NO", by decide, by decide⟩, ⟨ascii "OP\r\n", by decide, by decide⟩]
    Cuts (stream [noopLine]) whole ∧ Cuts (stream [noopLine]) cut ∧
      (converse maileyGlobals .silent waitingConnection whole).1 = [] ∧
      (converse maileyGlobals .silent waitingConnection cut).1 =
        [.rejectUnrecognized, .rejectUnrecognized] := by
  refine ⟨cuts_linewise [noopLine], ⟨by decide, by decide⟩, by decide +kernel, by decide +kernel⟩

end Femail
