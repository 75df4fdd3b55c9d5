import Femail.Verified.Dialogue

/-! # The message buffer

`alloccount` and `messagebufferend` count the same reads in two ways, in pieces and in
bytes.  `BufferOk` is what ties them to the block of a queued record, and `Holds` what
the block has in it: exactly the bytes read since the 354, and a NUL.
-/

namespace Femail

open Foundation

/-! ## Looking for the end -/

/-- `found_crlf_end` finds the marker anywhere in the string, and only there. -/
theorem foundCrlfEnd_iff (memory : List Byte) :
    foundCrlfEnd memory = true ↔ crlfDotCrlf <:+: cstring memory := by
  have nulFree : 0 ∉ crlfDotCrlf := by decide
  induction memory with
  | nil => decide
  | cons c rest ih =>
    unfold foundCrlfEnd
    by_cases nul : c = 0
    · subst nul
      rw [if_pos rfl, cstring_cons_zero]
      decide
    · have here : (c = 13 ∧ strncmp (c :: rest) crlfDotCrlf 5 = 0) ↔
          crlfDotCrlf <+: c :: cstring rest := by
        rw [← cstring_cons_of_ne nul, literal_isPrefix_cstring_iff nulFree]
        have literal := strncmp_literal nulFree (c :: rest)
        rw [show crlfDotCrlf.length = 5 from rfl] at literal
        rw [literal]
        constructor
        · exact And.right
        · intro marker
          refine ⟨?_, marker⟩
          exact (List.cons_prefix_cons.mp marker).1.symm
      rw [if_neg nul, cstring_cons_of_ne nul, List.infix_cons_iff]
      by_cases found : c = 13 ∧ strncmp (c :: rest) crlfDotCrlf 5 = 0
      · rw [if_pos found]
        exact iff_of_true rfl (Or.inl (here.mp found))
      · rw [if_neg found]
        constructor
        · intro later
          exact Or.inr (ih.mp later)
        · rintro (now | later)
          · exact absurd (here.mpr now) found
          · exact ih.mpr later

/-! ## The message block -/

/-- The message block holds `text`, with room for what the record says. -/
structure Buffered (conn : Connection) (text : List Byte) : Prop where
  size : conn.messagebufferend = text.length
  room : text.length ≤ conn.alloccount * smallBufferSize
  bytes : text <+: messageBytes conn

/-- The block after an append: the text, the chunk, a NUL. -/
theorem Buffered.appendedBytes_eq {conn : Connection} {text : List Byte}
    (buffered : Buffered conn text) (t : Turn) (chunk : Chunk) :
    ∃ rest, appendedBytes t conn chunk conn.nextSize = (text ++ chunk.bytes) ++ 0 :: rest := by
  obtain ⟨size, room, tail, block⟩ := buffered
  have fits := chunk.fits
  -- `realloc` keeps the text and adds fresh memory behind it
  have grown : (messageBytes conn ++ (List.range conn.nextSize).map t.fresh).take conn.nextSize =
      text ++ (tail ++ (List.range conn.nextSize).map t.fresh).take (conn.nextSize - text.length) := by
    have inside : text.length ≤ conn.nextSize :=
      Nat.le_succ_of_le (room.trans (Nat.mul_le_mul_right _ (Nat.le_succ _)))
    rw [← block, List.append_assoc, List.take_append, List.take_of_length_le inside]
  simp only [appendedBytes]
  rw [grown, size, overwrite_append, ← List.length_append, overwrite_append]
  exact ⟨_, List.append_assoc _ [0] _⟩

theorem Buffered.appended {conn : Connection} {text : List Byte} (buffered : Buffered conn text)
    (t : Turn) (chunk : Chunk) (addr : Addr) :
    Buffered (conn.appended t chunk addr) (text ++ chunk.bytes) := by
  obtain ⟨rest, bytes⟩ := buffered.appendedBytes_eq t chunk
  have fits := chunk.fits
  have room := buffered.room
  refine ⟨?_, ?_, ?_⟩
  · simp [Connection.appended, buffered.size]
  · simp only [Connection.appended, List.length_append, smallBufferSize] at fits room ⊢
    omega
  · exact ⟨0 :: rest, bytes.symm⟩

/-- What `found_crlf_end` sees of the block. -/
theorem Buffered.found_iff {conn : Connection} {text : List Byte} (buffered : Buffered conn text)
    (t : Turn) (chunk : Chunk) :
    foundCrlfEnd (appendedBytes t conn chunk conn.nextSize) = true ↔
      crlfDotCrlf <:+: cstring (text ++ chunk.bytes) := by
  obtain ⟨rest, bytes⟩ := buffered.appendedBytes_eq t chunk
  rw [foundCrlfEnd_iff, bytes, cstring_append_zero]

/-- The branch ends a message only if its text has the end marker. -/
theorem Buffered.marker_of_found {conn : Connection} {text : List Byte}
    (buffered : Buffered conn text) {t : Turn} {chunk : Chunk}
    (found : foundCrlfEnd (appendedBytes t conn chunk conn.nextSize) = true) :
    crlfDotCrlf <:+: text ++ chunk.bytes := by
  rw [buffered.found_iff] at found
  exact found.trans (cstring_isPrefix _).isInfix

/-- Outside the data phase a turn leaves the buffer fields alone. -/
theorem buffer_smtpHandler (g : Globals) (t : Turn) {conn : Connection}
    (other : conn.state ≠ .mailExpectData) :
    (smtpHandler g t conn).conn.alloccount = conn.alloccount ∧
      (smtpHandler g t conn).conn.messagebufferend = conn.messagebufferend ∧
      (smtpHandler g t conn).conn.messagebuffer = conn.messagebuffer := by
  have step := smtpHandler_step g t conn
  generalize smtpHandler g t conn = handled at step ⊢
  cases step with
  | tooLarge _ _ _ data | noMemory _ _ _ data | dataEnd _ _ _ _ data | dataMore _ _ _ _ data =>
    exact absurd data other
  | command chunk command =>
    have step := smtpHandleCommand_step g t conn command
    dsimp only
    generalize smtpHandleCommand g t conn command = handled at step ⊢
    generalize command.command = verb at step
    cases step <;> exact ⟨rfl, rfl, rfl⟩
  | _ => exact ⟨rfl, rfl, rfl⟩

/-! ## In bounds and exact -/

/-- The buffer fields of a queued record agree with the block. -/
structure BufferOk (conn : Connection) : Prop where
  null : conn.messagebuffer = none ↔ conn.alloccount = 0
  block : ∀ block, conn.messagebuffer = some block →
    block.bytes.length = conn.alloccount * smallBufferSize + 1
  inside : conn.messagebufferend ≤ conn.alloccount * smallBufferSize
  count : conn.alloccount ≤ 10239

/-- The bytes read since the last 354. -/
def sinceStartData : List Observed → List Byte
  | [] => []
  | o :: older => if .startData ∈ o.replies then [] else sinceStartData older ++ o.received

/-- The message read so far is `text`: there is no block before the first read, and a
    block with the text and a NUL after it. -/
structure Holds (conn : Connection) (text : List Byte) : Prop where
  size : conn.messagebufferend = text.length
  block : conn.messagebuffer = none ∧ text = [] ∨
    ∃ addr rest, conn.messagebuffer = some ⟨addr, text ++ 0 :: rest⟩

/-- Every copy goes to a block that the same turn has allocated, and stays inside. -/
def StoresInside (events : List Event) : Prop :=
  ∀ addr offset len, .store addr offset len ∈ events →
    ∃ before old size after, events = before ++ .realloc old size (some addr) :: after ∧
      .store addr offset len ∈ after ∧ offset + len ≤ size

theorem Holds.buffered {conn : Connection} {text : List Byte} (holds : Holds conn text)
    (inside : conn.messagebufferend ≤ conn.alloccount * smallBufferSize) : Buffered conn text := by
  refine ⟨holds.size, ?_, ?_⟩
  · rw [← holds.size]
    exact inside
  · obtain ⟨-, rfl⟩ | ⟨addr, rest, block⟩ := holds.block
    · exact List.nil_prefix
    · simp only [messageBytes, block]
      exact List.prefix_append _ _

theorem length_appendedBytes (t : Turn) {conn : Connection} (ok : BufferOk conn) (chunk : Chunk) :
    (appendedBytes t conn chunk conn.nextSize).length = conn.nextSize := by
  have inside := ok.inside
  have fits := chunk.fits
  have grown : ((messageBytes conn ++ (List.range conn.nextSize).map t.fresh).take
      conn.nextSize).length = conn.nextSize := by
    simp
  have room : conn.messagebufferend + chunk.bytes.length + 1 ≤ conn.nextSize := by
    simp only [Connection.nextSize, smallBufferSize] at inside fits ⊢
    omega
  simp only [appendedBytes]
  rw [length_overwrite, length_overwrite, grown]
  · rw [grown]
    omega
  · rw [length_overwrite, grown]
    · exact room
    · rw [grown]
      omega

/-- A read into the block keeps the fields in step. -/
theorem BufferOk.appended {conn : Connection} (ok : BufferOk conn) (t : Turn) (chunk : Chunk)
    (addr : Addr) (fits : conn.nextSize ≤ esmtpSize) : BufferOk (conn.appended t chunk addr) := by
  have inside := ok.inside
  have short := chunk.fits
  refine ⟨?_, ?_, ?_, ?_⟩
  · simp [Connection.appended]
  · intro block same
    cases same
    exact length_appendedBytes t ok chunk
  · simp only [Connection.appended, smallBufferSize] at inside short ⊢
    omega
  · simp only [Connection.appended, Connection.nextSize, smallBufferSize, esmtpSize] at fits ⊢
    omega

theorem Holds.appended {conn : Connection} {text : List Byte} (holds : Holds conn text)
    (inside : conn.messagebufferend ≤ conn.alloccount * smallBufferSize) (t : Turn) (chunk : Chunk)
    (addr : Addr) : Holds (conn.appended t chunk addr) (text ++ chunk.bytes) := by
  obtain ⟨rest, bytes⟩ := (holds.buffered inside).appendedBytes_eq t chunk
  refine ⟨?_, Or.inr ⟨addr, rest, ?_⟩⟩
  · simp [Connection.appended, holds.size]
  · simp only [Connection.appended, bytes]

/-- An empty buffer holds the empty message. -/
theorem BufferOk.empty {conn : Connection} (none' : conn.messagebuffer = none)
    (count : conn.alloccount = 0) (size : conn.messagebufferend = 0) :
    BufferOk conn ∧ Holds conn [] := by
  refine ⟨⟨by simp [none', count], ?_, by simp [size], by simp [count]⟩, size, Or.inl ⟨none', rfl⟩⟩
  intro block some'
  rw [none'] at some'
  cases some'

/-- The buffer along a run. -/
structure BufferInv (h : List Observed) (conn : Connection) : Prop where
  ok : BufferOk conn
  outside : conn.state ≠ .mailExpectData → conn.alloccount = 0 ∧ conn.messagebufferend = 0
  inside : conn.state = .mailExpectData → Holds conn (sinceStartData h)

/-- The data phase is entered by a 354. -/
theorem DialogueStep.startData_of_entered {s : ConnectionState} {o : Observed}
    (step : DialogueStep s o (some .mailExpectData)) (other : s ≠ .mailExpectData) :
    .startData ∈ o.replies := by
  generalize target : some ConnectionState.mailExpectData = next at step
  cases step with
  | command _ _ _ _ _ _ _ move =>
    cases move with
    | data => exact List.mem_cons_self
    | rset =>
      exfalso
      split at target <;> cases target
    | noop | help | unimplemented | helloTooLong | mailSequence | rcptSequence =>
      cases target
      exact absurd rfl other
    | _ => cases target
  | negotiating _ _ _ _ kind | noData _ kind =>
    subst target
    exact absurd (by simpa [eq_comm] using kind) other
  | dataMore | unrecognized =>
    cases target
    exact absurd rfl other
  | _ => cases target

/-- Outside the data phase, kept or reset, a record has no block. -/
theorem BufferInv.cleared {g : Globals} {h : List Observed} {t : Turn} {conn conn' : Connection}
    (smtp : conn.type = .smtp) (inv : BufferInv h conn) (other : conn.state ≠ .mailExpectData)
    (kept : (serveConnection g t conn).1 = some conn') :
    conn'.messagebuffer = none ∧ conn'.alloccount = 0 ∧ conn'.messagebufferend = 0 := by
  obtain ⟨count, size⟩ := inv.outside other
  have none' := inv.ok.null.mpr count
  obtain ⟨sameCount, sameSize, sameBlock⟩ := buffer_smtpHandler g t other
  rw [← connectionHandler_smtp g t smtp] at sameCount sameSize sameBlock
  obtain ⟨-, rfl⟩ | ⟨-, rfl⟩ := serveConnection_of_kept kept
  · exact ⟨sameBlock.trans none', sameCount.trans count, sameSize.trans size⟩
  · exact ⟨rfl, rfl, rfl⟩

/-- The step outside the data phase: nothing is allocated, and DATA starts from there. -/
theorem BufferInv.step_outside {g : Globals} {h : List Observed} {t : Turn}
    {conn conn' : Connection} (smtp : conn.type = .smtp) (live : conn.live = true)
    (inv : BufferInv h conn) (other : conn.state ≠ .mailExpectData)
    (kept : (serveConnection g t conn).1 = some conn') :
    BufferInv (observe (serveConnection g t conn).2 :: h) conn' := by
  obtain ⟨none', count, size⟩ := inv.cleared smtp other kept
  obtain ⟨ok, holds⟩ := BufferOk.empty none' count size
  refine ⟨ok, fun _ => ⟨count, size⟩, ?_⟩
  intro data
  have step := serveConnection_dialogue g t smtp live
  rw [kept, Option.map_some, data] at step
  rw [sinceStartData, if_pos (step.startData_of_entered other)]
  exact holds

/-- The step inside the data phase. -/
theorem BufferInv.step_inside {g : Globals} {h : List Observed} {t : Turn}
    {conn conn' : Connection} (smtp : conn.type = .smtp) (live : conn.live = true)
    (inv : BufferInv h conn) (data : conn.state = .mailExpectData)
    (kept : (serveConnection g t conn).1 = some conn') :
    BufferInv (observe (serveConnection g t conn).2 :: h) conn' := by
  have holds := inv.inside data
  rw [observe_serveConnection]
  unfold serveConnection at kept
  rw [connectionHandler_smtp g t smtp] at kept ⊢
  have step := smtpHandler_dataStep g t live data
  generalize smtpHandler g t conn = handled at step kept ⊢
  cases step with
  | noMemory => cases kept
  | noData result nothing kind =>
    obtain rfl | rfl := kind
    · cases kept
      rw [observe_smtpReceiveMsg, nothing]
      refine ⟨⟨inv.ok.null, inv.ok.block, inv.ok.inside, inv.ok.count⟩, inv.outside, fun _ => ?_⟩
      simp only [sinceStartData, observe_nil, List.not_mem_nil, if_false, List.append_nil]
      exact ⟨holds.size, holds.block⟩
    · cases kept
  | tooLarge | ends =>
    -- both exits reset the record
    cases kept
    exact ⟨(BufferOk.empty rfl rfl rfl).1, fun _ => ⟨rfl, rfl⟩, by simp [data]⟩
  | more chunk addr got fits =>
    cases kept
    have ok := inv.ok.appended t chunk addr fits
    have longer := holds.appended inv.ok.inside t chunk addr
    rw [observe_smtpReceiveMsg, observe_only_appendEvents, got]
    refine ⟨⟨ok.null, ok.block, ok.inside, ok.count⟩, fun other => absurd data other, fun _ => ?_⟩
    simp only [sinceStartData, List.not_mem_nil, if_false, List.append_nil]
    exact ⟨longer.size, longer.block⟩

theorem bufferInv_session {g : Globals} {h : SessionHistory} {s : Option Connection}
    (reaches : (session g).Reaches (smtpStart g) Machine.anyStep h s) (conn : Connection)
    (here : s = some conn) :
    conn.type = .smtp ∧ conn.live = true ∧ BufferInv (seen h) conn := by
  revert conn
  apply Machine.Reaches.invariant
    (fun h s => ∀ conn, s = some conn → conn.type = .smtp ∧ conn.live = true ∧
      BufferInv (seen h) conn) _ _ reaches
  · rintro s ⟨a, strat, rfl⟩ conn same
    cases same
    have state := state_acceptedConnection_smtp g a strat
    refine ⟨type_acceptedConnection g a _ strat, live_acceptedConnection g a _ strat, ?_⟩
    exact ⟨(BufferOk.empty rfl rfl rfl).1, fun _ => ⟨rfl, rfl⟩, by simp [state]⟩
  · intro h s t ih ok conn' kept
    cases s with
    | none => cases kept
    | some conn =>
      obtain ⟨smtp, live, inv⟩ := ih conn rfl
      obtain ⟨live', type', -⟩ := serveConnection_keeps live kept
      refine ⟨type'.trans smtp, live', ?_⟩
      by_cases data : conn.state = .mailExpectData
      · exact inv.step_inside smtp live data kept
      · exact inv.step_outside smtp live data kept

/-! ## The copies -/

theorem store_notMem_smtpSendMsg {g : Globals} {t : Turn} {conn : Connection} {reply : Reply}
    {addr : Addr} {offset len : Nat} : .store addr offset len ∉ smtpSendMsg g t conn reply := by
  rw [smtpSendMsg_eq]
  cases conn.sslconn <;> simp

theorem store_ne_smtpReceiveMsg {t : Turn} {conn : Connection} {addr : Addr} {offset len : Nat} :
    .store addr offset len ≠ smtpReceiveMsg t conn := by
  unfold smtpReceiveMsg
  cases conn.sslconn <;> simp

theorem store_notMem_smtpHandleCommand {g : Globals} {t : Turn} {conn : Connection}
    {command : SMTPClientCommand} {addr : Addr} {offset len : Nat} :
    .store addr offset len ∉ (smtpHandleCommand g t conn command).events := by
  have step := smtpHandleCommand_step g t conn command
  generalize smtpHandleCommand g t conn command = handled at step ⊢
  generalize command.command = verb at step
  cases step with
  | noop => simp
  | starttls => simp [store_notMem_smtpSendMsg]
  | _ => exact store_notMem_smtpSendMsg

/-- A copy is made by an append, right behind its `realloc`. -/
theorem store_smtpHandler {g : Globals} {t : Turn} {conn : Connection} {addr : Addr}
    {offset len : Nat} (store : .store addr offset len ∈ (smtpHandler g t conn).events) :
    ∃ chunk addr' rest, (smtpHandler g t conn).events =
        smtpReceiveMsg t conn :: appendEvents conn chunk addr' ++ rest ∧
      .store addr offset len ∈ appendEvents conn chunk addr' := by
  have step := smtpHandler_step g t conn
  generalize smtpHandler g t conn = handled at step store ⊢
  cases step with
  | dataMore chunk addr' =>
    obtain receive | mem := List.mem_cons.mp store
    · exact absurd receive store_ne_smtpReceiveMsg
    · exact ⟨chunk, addr', [], by simp, mem⟩
  | dataEnd chunk addr' =>
    refine ⟨chunk, addr', _, rfl, ?_⟩
    obtain mem | send := List.mem_append.mp store
    · exact (List.mem_cons.mp mem).resolve_left store_ne_smtpReceiveMsg
    · exact absurd send store_notMem_smtpSendMsg
  | command => simp [store_ne_smtpReceiveMsg, store_notMem_smtpHandleCommand] at store
  | _ => simp [store_ne_smtpReceiveMsg, store_notMem_smtpSendMsg] at store

/-- The two copies of an append end inside the block. -/
theorem appendEvents_inside {conn : Connection} (ok : BufferOk conn) {chunk : Chunk}
    {addr addr' : Addr} {offset len : Nat}
    (store : .store addr offset len ∈ appendEvents conn chunk addr') :
    addr = addr' ∧ offset + len ≤ conn.nextSize := by
  have inside := ok.inside
  have fits := chunk.fits
  simp only [appendEvents, List.mem_cons, List.not_mem_nil, or_false, reduceCtorEq, false_or,
    Event.store.injEq] at store
  simp only [Connection.nextSize, smallBufferSize] at inside fits ⊢
  obtain ⟨rfl, rfl, rfl⟩ | ⟨rfl, rfl, rfl⟩ := store
  · exact ⟨rfl, by omega⟩
  · exact ⟨rfl, by omega⟩

theorem storesInside_serveConnection (g : Globals) (t : Turn) {conn : Connection}
    (smtp : conn.type = .smtp) (ok : BufferOk conn) :
    StoresInside (serveConnection g t conn).2 := by
  intro addr offset len store
  obtain ⟨rest, output, settled⟩ : ∃ rest, (serveConnection g t conn).2 =
      (smtpHandler g t conn).events ++ rest ∧ .store addr offset len ∉ rest := by
    unfold serveConnection
    rw [connectionHandler_smtp g t smtp]
    refine ⟨_, rfl, ?_⟩
    -- settling makes no copy
    cases result : (smtpHandler g t conn).result <;>
      simp [settleConnection, result, resetConnection, connectionDeinit]
  rw [output] at store ⊢
  obtain ⟨chunk, addr', others, events, mem⟩ :=
    store_smtpHandler ((List.mem_append.mp store).resolve_right settled)
  obtain ⟨rfl, inside⟩ := appendEvents_inside ok mem
  refine ⟨[smtpReceiveMsg t conn], conn.messagebuffer.map Block.addr, conn.nextSize,
    [.store addr conn.messagebufferend chunk.bytes.length,
     .store addr (conn.messagebufferend + chunk.bytes.length) 1] ++ (others ++ rest), ?_, ?_, inside⟩
  · rw [events]
    simp [appendEvents]
  · refine List.mem_append_left _ ?_
    simpa [appendEvents] using mem

/-- **In bounds and exact.**  Whenever an SMTP connection is queued its buffer fields agree
    with the block, and in the data phase the block has what was read since the 354 and a
    NUL; every copy of a turn stays inside the block it goes to. -/
theorem buffer_exact (g : Globals) {h : SessionHistory} {s : Option Connection}
    (reaches : (session g).Reaches (smtpStart g) Machine.anyStep h s) :
    (∀ conn, s = some conn → BufferOk conn ∧
        (conn.state = .mailExpectData → Holds conn (sinceStartData (seen h)))) ∧
      ∀ t, StoresInside ((session g).step s t).2 := by
  constructor
  · intro conn here
    obtain ⟨-, -, inv⟩ := bufferInv_session reaches conn here
    exact ⟨inv.ok, inv.inside⟩
  · intro t
    cases s with
    | none => exact nofun
    | some conn =>
      obtain ⟨smtp, -, inv⟩ := bufferInv_session reaches conn rfl
      exact storesInside_serveConnection g t smtp inv.ok

/-- A message in two reads, the end marker not yet complete. -/
theorem buffer_exact_mailey :
    let turns := [.silent, dataTurn, .sends (ascii "a\r\n") (by decide) (by decide),
      .sends (ascii ".\r") (by decide) (by decide)]
    let last := (session maileyGlobals).trace [] maileyConnection turns
    ∃ conn, last.2 = some conn ∧ BufferOk conn ∧ Holds conn (ascii "a\r\n.\r") := by
  intro turns last
  have run := maileyConnection_reaches turns
  have state : last.2.map Connection.state = some .mailExpectData := by decide +kernel
  have text : sinceStartData (seen last.1) = ascii "a\r\n.\r" := by decide +kernel
  obtain ⟨conn, here, data⟩ := Option.map_eq_some_iff.mp state
  obtain ⟨ok, holds⟩ := (buffer_exact _ run).1 conn here
  exact ⟨conn, here, ok, text ▸ holds data⟩

end Femail
