import Femail.Verified.Buffer

/-! # The text of a message

The data branch collects what it reads in `messagebuffer` and looks for CRLF.CRLF
in all of it.  `Buffered` says that the block holds exactly the bytes read since
the 354, so the branch ends the message no earlier than the client does.  A
message that does not fit `ESMTP_SIZE` is dropped half way, though, and the rest of
its text is then taken for commands.
-/

namespace Femail

open Foundation

/-! ## Inside a message -/

/-- A turn of the history sent a 354, `text` is what was read after it, and the end
    marker is not in it. -/
inductive InMessage : List Observed → List Byte → Prop where
  | start {o : Observed} {h : List Observed} : .startData ∈ o.replies → InMessage (o :: h) []
  | more {o : Observed} {h : List Observed} {text : List Byte} : InMessage h text →
      ¬ crlfDotCrlf <:+: text ++ o.received → InMessage (o :: h) (text ++ o.received)

/-- A read of message text fits the size limit. -/
def messageFits : SessionHistory → Option Connection → Turn → Prop
  | _, some conn, t => conn.state = .mailExpectData → t.recv.bytes ≠ [] → conn.nextSize ≤ esmtpSize
  | _, none, _ => True

instance : ∀ h s t, Decidable (messageFits h s t)
  | _, some _, _ => inferInstanceAs (Decidable (_ → _ → _))
  | _, none, _ => inferInstanceAs (Decidable True)

/-- What the record of a connection says about the message it is in. -/
structure MessageInv (h : List Observed) (conn : Connection) : Prop where
  outside : conn.state ≠ .mailExpectData → conn.messagebufferend = 0
  inside : ∀ text, InMessage h text → conn.state = .mailExpectData ∧ Buffered conn text

/-- A reset record and a kept one count the same bytes, if there are none. -/
theorem messagebufferend_serveConnection {g : Globals} {t : Turn} {conn conn' : Connection}
    (kept : (serveConnection g t conn).1 = some conn')
    (zero : (connectionHandler g t conn).conn.messagebufferend = 0) :
    conn'.messagebufferend = 0 := by
  obtain ⟨-, rfl⟩ | ⟨-, rfl⟩ := serveConnection_of_kept kept
  · exact zero
  · rfl

/-- The step outside a message: a message begins with an empty block. -/
theorem MessageInv.step_outside {g : Globals} {h : List Observed} {t : Turn}
    {conn conn' : Connection} (smtp : conn.type = .smtp) (live : conn.live = true)
    (inv : MessageInv h conn) (other : conn.state ≠ .mailExpectData)
    (kept : (serveConnection g t conn).1 = some conn') :
    MessageInv (observe (serveConnection g t conn).2 :: h) conn' := by
  have handler := connectionHandler_smtp g t smtp
  obtain ⟨-, same, -⟩ := buffer_smtpHandler g t other
  have zero : conn'.messagebufferend = 0 :=
    messagebufferend_serveConnection kept (by rw [handler, same, inv.outside other])
  refine ⟨fun _ => zero, ?_⟩
  intro text inside
  cases inside with
  | start sent =>
    have step := serveConnection_dialogue g t smtp live
    rw [kept] at step
    obtain ⟨-, state⟩ := step.of_startData sent
    exact ⟨by simpa using state, zero, Nat.zero_le _, List.nil_prefix⟩
  | more before => exact absurd (inv.inside _ before).1 other

/-- The step inside a message. -/
theorem MessageInv.step_inside {g : Globals} {h : List Observed} {t : Turn}
    {conn conn' : Connection} (smtp : conn.type = .smtp) (live : conn.live = true)
    (inv : MessageInv h conn) (data : conn.state = .mailExpectData)
    (fits : t.recv.bytes ≠ [] → conn.nextSize ≤ esmtpSize)
    (kept : (serveConnection g t conn).1 = some conn') :
    MessageInv (observe (serveConnection g t conn).2 :: h) conn' := by
  have handler := connectionHandler_smtp g t smtp
  rw [observe_serveConnection]
  unfold serveConnection at kept
  rw [handler] at kept ⊢
  have step := smtpHandler_dataStep g t live data
  generalize smtpHandler g t conn = handled at step kept ⊢
  cases step with
  | noMemory => cases kept
  | tooLarge chunk got large =>
    -- the branch that the condition on the run excludes
    have := fits (Turn.bytes_ne_nil got)
    omega
  | noData result nothing kind =>
    obtain rfl | rfl := kind
    · cases kept
      refine ⟨inv.outside, ?_⟩
      intro text inside
      rw [observe_smtpReceiveMsg, nothing] at inside
      cases inside with
      | start sent => cases sent
      | more before =>
        obtain ⟨-, buffered⟩ := inv.inside _ before
        simp only [observe_nil, List.append_nil]
        exact ⟨data, buffered.size, buffered.room, buffered.bytes⟩
    · cases kept
  | more chunk addr got =>
    cases kept
    refine ⟨fun other => absurd data other, ?_⟩
    intro text inside
    rw [observe_smtpReceiveMsg, observe_only_appendEvents, got] at inside
    cases inside with
    | start sent => cases sent
    | more before =>
      obtain ⟨-, buffered⟩ := inv.inside _ before
      have longer := buffered.appended t chunk addr
      simp only [List.append_nil]
      exact ⟨data, longer.size, longer.room, longer.bytes⟩
  | ends chunk addr got _ _ found =>
    -- the marker was found in what was read, so the history is past the message
    cases kept
    refine ⟨fun _ => rfl, ?_⟩
    intro text inside
    rw [List.cons_append, observe_smtpReceiveMsg, observe_appendEvents, observe_smtpSendMsg, got]
      at inside
    cases inside with
    | start sent => simp at sent
    | more before missing =>
      obtain ⟨-, buffered⟩ := inv.inside _ before
      refine absurd (buffered.marker_of_found found) ?_
      simpa [Recv.bytes] using missing

/-- The record and the message along a run in which every message fits. -/
theorem messageInv_session {g : Globals} {h : SessionHistory} {s : Option Connection}
    (reaches : (session g).Reaches (smtpStart g) messageFits h s) (conn : Connection)
    (here : s = some conn) :
    conn.type = .smtp ∧ conn.live = true ∧ MessageInv (seen h) conn := by
  revert conn
  apply Machine.Reaches.invariant
    (fun h s => ∀ conn, s = some conn → conn.type = .smtp ∧ conn.live = true ∧
      MessageInv (seen h) conn) _ _ reaches
  · rintro s ⟨a, strat, rfl⟩ conn same
    cases same
    refine ⟨type_acceptedConnection g a _ strat, live_acceptedConnection g a _ strat, ?_, ?_⟩
    · exact fun _ => messagebufferend_acceptedConnection g a _ strat
    · intro text inside
      cases inside
  · intro h s t ih ok conn' kept
    cases s with
    | none => cases kept
    | some conn =>
      obtain ⟨smtp, live, inv⟩ := ih conn rfl
      obtain ⟨live', type', -⟩ := serveConnection_keeps live kept
      refine ⟨type'.trans smtp, live', ?_⟩
      by_cases data : conn.state = .mailExpectData
      · exact inv.step_inside smtp live data (ok data) kept
      · exact inv.step_outside smtp live data kept

/-- In the data phase nothing is parsed. -/
theorem parses_of_expectData {g : Globals} {t : Turn} {conn : Connection}
    (smtp : conn.type = .smtp) (live : conn.live = true) (data : conn.state = .mailExpectData) :
    parses (serveConnection g t conn).2 = [] := by
  apply List.eq_nil_iff_forall_not_mem.mpr
  intro verb parsed
  exact (serveConnection_dialogue g t smtp live).ne_expectData_of_parsed parsed data

/-- **Message text is never a command.**  In every run of an SMTP connection in which
    every message fits the size limit, a turn between a 354 and the end marker
    parses nothing. -/
theorem inMessage_parses_nothing (g : Globals) {h : SessionHistory} {s : Option Connection}
    (reaches : (session g).Reaches (smtpStart g) messageFits h s) {text : List Byte}
    (inside : InMessage (seen h) text) (t : Turn) : parses ((session g).step s t).2 = [] := by
  cases s with
  | none => rfl
  | some conn =>
    obtain ⟨smtp, live, inv⟩ := messageInv_session reaches conn rfl
    exact parses_of_expectData smtp live (inv.inside text inside).1

/-- QUIT as the first line of a message is text. -/
theorem inMessage_parses_nothing_mailey :
    let last := (session maileyGlobals).trace [] maileyConnection [.silent, dataTurn]
    InMessage (seen last.1) [] ∧
      parses ((session maileyGlobals).step last.2
        (.sends (ascii "QUIT\r\n") (by decide) (by decide))).2 = [] := by
  intro last
  have admitted : (session maileyGlobals).Admits messageFits [] maileyConnection
      [.silent, dataTurn] := by
    decide +kernel
  have run := (Machine.Reaches.start maileyConnection_start).trace _ admitted
  have inside : InMessage (seen last.1) [] := .start (by decide +kernel)
  exact ⟨inside, inMessage_parses_nothing _ run inside _⟩

/-! ## A message that does not fit -/

theorem marker_notIn_text (n : Nat) : ¬ crlfDotCrlf <:+: List.replicate n (97 : Byte) := by
  intro inside
  have mem : (13 : Byte) ∈ List.replicate n 97 := inside.subset (by decide)
  exact absurd (List.eq_of_mem_replicate mem) (by decide)

/-- A turn that brings text of a message, with nothing to end it. -/
theorem smtpHandler_text {g : Globals} {t : Turn} {conn : Connection} {text : List Byte}
    {chunk : Chunk} {addr : Addr} (live : conn.live = true) (data : conn.state = .mailExpectData)
    (buffered : Buffered conn text) (got : t.recv = .data chunk) (memory : t.realloc = some addr)
    (missing : ¬ crlfDotCrlf <:+: text ++ chunk.bytes) :
    smtpHandler g t conn =
      if conn.nextSize ≤ esmtpSize then
        ⟨.continue, conn.appended t chunk addr,
          smtpReceiveMsg t conn :: appendEvents conn chunk addr⟩
      else
        ⟨.reset, { conn with alloccount := conn.alloccount + 1 },
          smtpReceiveMsg t conn ::
            smtpSendMsg g t { conn with alloccount := conn.alloccount + 1 } .rejectTooLarge⟩ := by
  have step := smtpHandler_dataStep g t live data
  generalize smtpHandler g t conn = handled at step ⊢
  cases step with
  | noData _ nothing => exact absurd nothing (Turn.bytes_ne_nil got)
  | tooLarge _ _ large => rw [if_neg (by omega)]
  | noMemory _ _ _ failed =>
    rw [memory] at failed
    cases failed
  | ends chunk' _ got' _ _ found =>
    rw [got] at got'
    cases got'
    exact absurd (buffered.marker_of_found found) missing
  | more chunk' addr' got' fits memory' =>
    rw [got] at got'
    cases got'
    rw [memory] at memory'
    cases memory'
    rw [if_pos fits]

/-- Each byte of text takes one more piece of the block. -/
theorem text_accumulates (n : Nat) (fits : n * smallBufferSize + 1 ≤ esmtpSize) :
    ∃ h conn, (session maileyGlobals).Reaches (smtpStart maileyGlobals) messageFits h (some conn) ∧
      InMessage (seen h) (List.replicate n 97) ∧ conn.alloccount = n := by
  induction n with
  | zero =>
    have admitted : (session maileyGlobals).Admits messageFits [] maileyConnection
        [.silent, dataTurn] := by
      decide +kernel
    have run := (Machine.Reaches.start maileyConnection_start).trace _ admitted
    have counts : ((session maileyGlobals).trace [] maileyConnection [.silent, dataTurn]).2.map
        Connection.alloccount = some 0 := by
      decide +kernel
    obtain ⟨conn, here, count⟩ := Option.map_eq_some_iff.mp counts
    rw [here] at run
    exact ⟨_, conn, run, .start (by decide +kernel), count⟩
  | succ n ih =>
    have step : n * smallBufferSize ≤ (n + 1) * smallBufferSize :=
      Nat.mul_le_mul_right _ (Nat.le_succ n)
    obtain ⟨h, conn, run, inside, count⟩ := ih (by omega)
    obtain ⟨smtp, live, inv⟩ := messageInv_session run conn rfl
    obtain ⟨data, buffered⟩ := inv.inside _ inside
    have room : conn.nextSize ≤ esmtpSize := by
      simpa only [Connection.nextSize, count] using fits
    have longer : List.replicate n (97 : Byte) ++ [97] = List.replicate (n + 1) 97 :=
      List.replicate_succ'.symm
    have handler : smtpHandler maileyGlobals textTurn conn = _ :=
      smtpHandler_text live data buffered rfl rfl (by rw [longer]; exact marker_notIn_text _)
    rw [if_pos room] at handler
    have ok : messageFits h (some conn) textTurn := fun _ _ => room
    have served : connectionHandler maileyGlobals textTurn conn = _ :=
      (connectionHandler_smtp _ _ smtp).trans handler
    have kept : ((session maileyGlobals).step (some conn) textTurn).1 = some
        { conn.appended textTurn ⟨[97], by decide, by decide⟩ 1 with timerefreshed := 0 } := by
      simp only [session, serveConnection, served]
      rfl
    have shown : observe ((session maileyGlobals).step (some conn) textTurn).2 = ⟨[97], [], [], []⟩ := by
      refine (observe_serveConnection _ _ _).trans ?_
      rw [served, observe_smtpReceiveMsg, observe_only_appendEvents]
      rfl
    have next := run.step ok
    rw [kept] at next
    refine ⟨_, _, next, ?_, congrArg (· + 1) count⟩
    have more := InMessage.more (o := ⟨[97], [], [], []⟩) inside (by rw [longer]; exact marker_notIn_text _)
    rw [seen_cons, shown, ← longer]
    exact more

/-- Over the size limit: 10240 reads of one byte, with no end marker among them, and
    the QUIT that follows is parsed. -/
theorem oversized_text_parsed :
    ∃ h s text, (session maileyGlobals).Reaches (smtpStart maileyGlobals) Machine.anyStep h s ∧
      InMessage (seen h) text ∧ parses ((session maileyGlobals).step s quitTurn).2 = [some .quit] := by
  obtain ⟨h, conn, run, inside, count⟩ := text_accumulates 10239 (by decide)
  obtain ⟨smtp, live, inv⟩ := messageInv_session run conn rfl
  obtain ⟨data, buffered⟩ := inv.inside _ inside
  have longer : List.replicate 10239 (97 : Byte) ++ [97] = List.replicate 10240 97 :=
    List.replicate_succ'.symm
  have missing : ¬ crlfDotCrlf <:+: List.replicate 10239 (97 : Byte) ++ [97] := by
    rw [longer]
    exact marker_notIn_text _
  have handler : smtpHandler maileyGlobals textTurn conn = _ :=
    smtpHandler_text live data buffered rfl rfl missing
  have full : ¬ conn.nextSize ≤ esmtpSize := by
    simp only [Connection.nextSize, count]
    decide
  rw [if_neg full] at handler
  have served : connectionHandler maileyGlobals textTurn conn = _ :=
    (connectionHandler_smtp _ _ smtp).trans handler
  have shown : observe ((session maileyGlobals).step (some conn) textTurn).2 =
      ⟨[97], [], [.rejectTooLarge], []⟩ := by
    refine (observe_serveConnection _ _ _).trans ?_
    rw [served, observe_smtpReceiveMsg, observe_smtpSendMsg]
    rfl
  have left : ((session maileyGlobals).step (some conn) textTurn).1.map Connection.state =
      some .mailExpectAny := by
    refine (state_serveConnection _ _ _).trans ?_
    rw [served]
    simp [settledState, data]
  obtain ⟨conn', kept, state⟩ := Option.map_eq_some_iff.mp left
  obtain ⟨live', type', -⟩ := serveConnection_keeps live kept
  have brings : quitTurn.commandFor conn' = some .quit := by
    have reading : conn'.live = true ∧ conn'.state ≠ .mailOpened ∧ conn'.state ≠ .mailExpectTlsNeg ∧
        conn'.state ≠ .mailExpectData ∧ (ascii "QUIT\r\n").length < smallBufferSize - 1 := by
      rw [live', state]
      decide
    exact (if_pos reading).trans (by decide +kernel)
  have next := (run.mono fun _ _ _ _ => trivial).step (i := textTurn) (trivial : Machine.anyStep h _ _)
  rw [kept] at next
  refine ⟨_, _, List.replicate 10239 97 ++ [97], next, ?_, ?_⟩
  · rw [seen_cons, shown]
    exact .more inside missing
  · exact parses_of_commandFor maileyGlobals (type'.trans smtp) brings

end Femail
