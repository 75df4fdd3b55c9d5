import Femail.Foundation.Heap
import Femail.Verified.Isolation
import Femail.Verified.Ownership

/-! # The memory of the server

All the server allocates while it runs are the blocks the messages are read into.  The
heap is followed through the calls of `realloc` and `free` alone and compared with the
records that wait: in every run with an allocator that gives out nothing in use it is
their blocks, and what a failed `realloc` left behind (`memory_accounted`).
-/

namespace Femail

open Foundation

/-! ## The calls of the allocator -/

/-- A `realloc` that succeeds releases the old block; one that fails releases nothing. -/
def Event.heapCalls : Event → List (HeapCall Addr)
  | .realloc old size (some new) => old.toList.map .free ++ [.alloc new size]
  | .free old => old.toList.map .free
  | _ => []

def heapCalls (events : List Event) : List (HeapCall Addr) := events.flatMap Event.heapCalls

/-- The heap at the end of a run. -/
def heapOf (h : MasterHistory) : Heap Addr := heapAfter [] (heapCalls (calls h))

/-- `realloc` keeps the block where it is or moves it to an address that is not in use. -/
def Event.FreshBlock (heap : Heap Addr) : Event → Prop
  | .realloc old _ (some new) => some new = old ∨ new ∉ heap.map Prod.fst
  | _ => True

instance (heap : Heap Addr) : DecidablePred (Event.FreshBlock heap)
  | .realloc _ _ (some _) => inferInstanceAs (Decidable (_ ∨ _))
  | .realloc _ _ none => .isTrue trivial
  | .socket _ | .accept _ | .read _ _ | .sslRead _ _ | .dprintf _ _ _ | .sslWrite _ _ _
  | .sslNew _ _ | .sslSetFd _ _ | .sslAccept _ _ | .sslFree _ | .store _ _ _ | .free _ | .close _
  | .parseClientCommand _ _ | .handlerReturned _ => .isTrue trivial

/-- The block a record points to and its size. -/
def Connection.held (conn : Connection) : Option (Addr × Nat) :=
  conn.messagebuffer.map fun block => (block.addr, block.bytes.length)

/-- The blocks of waiting connections. -/
def heldBy (conns : List Connection) : Heap Addr := conns.flatMap fun conn => conn.held.toList

/-- The block a turn leaves behind. -/
def Turn.loses (t : Turn) (conn : Connection) : Option (Addr × Nat) :=
  if t.LosesBlock conn then conn.held else none

/-- The blocks left behind by a run, newest first. -/
def lostBlocks : MasterHistory → Heap Addr
  | [] => []
  | e :: older =>
    (match e.input with
      | .accept _ _ => []
      | .process p =>
        if p.dequeueLock then (e.before.contents.head?.bind p.turn.loses).toList else []) ++
      lostBlocks older

/-- The locks are released, and the allocator gives out nothing in use. -/
def soundMemory (srv : Server) : MasterHistory → ConnectionQueue → MasterInput → Prop :=
  fun h queue input =>
    unlocks queue input ∧ ∀ e ∈ (masterStep srv queue input).2, e.FreshBlock (heapOf h)

instance (srv : Server) : ∀ h queue input, Decidable (soundMemory srv h queue input) :=
  fun _ _ _ => inferInstanceAs (Decidable (_ ∧ _))

@[simp] theorem heapCalls_nil : heapCalls [] = [] := rfl

@[simp] theorem heapCalls_cons (e : Event) (events : List Event) :
    heapCalls (e :: events) = e.heapCalls ++ heapCalls events := rfl

@[simp] theorem heapCalls_append (events events' : List Event) :
    heapCalls (events ++ events') = heapCalls events ++ heapCalls events' := List.flatMap_append

/-- A read is no call of the allocator. -/
theorem heapCalls_read (t : Turn) (conn : Connection) (events : List Event) :
    heapCalls (smtpReceiveMsg t conn :: events) = heapCalls events := by
  unfold smtpReceiveMsg
  cases conn.sslconn <;> rfl

@[simp] theorem heapCalls_smtpSendMsg (g : Globals) (t : Turn) (conn : Connection) (reply : Reply) :
    heapCalls (smtpSendMsg g t conn reply) = [] := by
  rw [smtpSendMsg_eq]
  cases conn.sslconn <;> rfl

theorem release_held (conn : Connection) :
    Heap.release conn.held = (conn.messagebuffer.map Block.addr).toList.map .free := by
  unfold Heap.release Connection.held
  cases conn.messagebuffer <;> rfl

theorem heapCalls_free (conn : Connection) :
    heapCalls [.free (conn.messagebuffer.map Block.addr)] = Heap.release conn.held := by
  rw [release_held]
  exact List.append_nil _

theorem heapCalls_connectionDeinit (conn : Connection) :
    heapCalls (connectionDeinit conn) = Heap.release conn.held := by
  rw [release_held]
  exact List.append_nil _

/-! ## One turn -/

/-- What a handler does to the heap. -/
inductive HeapStep (t : Turn) (conn : Connection) (handled : Handled) : Prop where
  | kept : heapCalls handled.events = [] → handled.conn.held = conn.held → t.loses conn = none →
      HeapStep t conn handled
  | moved (addr : Addr) (size : Nat) :
      .realloc (conn.messagebuffer.map Block.addr) size (some addr) ∈ handled.events →
      heapCalls handled.events = Heap.release conn.held ++ [.alloc addr size] →
      handled.conn.held = some (addr, size) → t.loses conn = none → HeapStep t conn handled
  | lost : heapCalls handled.events = [] → handled.conn.held = none → t.loses conn = conn.held →
      HeapStep t conn handled

theorem heapCalls_appendEvents (conn : Connection) (chunk : Chunk) (addr : Addr) :
    heapCalls (appendEvents conn chunk addr) = Heap.release conn.held ++ [.alloc addr conn.nextSize] := by
  rw [release_held]
  simp [appendEvents, Event.heapCalls]

theorem smtpHandleCommand_heap (g : Globals) (t : Turn) (conn : Connection)
    (command : SMTPClientCommand) :
    heapCalls (smtpHandleCommand g t conn command).events = [] ∧
      (smtpHandleCommand g t conn command).conn.held = conn.held := by
  have step := smtpHandleCommand_step g t conn command
  generalize smtpHandleCommand g t conn command = handled at step ⊢
  generalize command.command = verb at step
  cases step with
  | noop => exact ⟨rfl, rfl⟩
  | starttls => exact ⟨by simp [Event.heapCalls], rfl⟩
  | _ => exact ⟨heapCalls_smtpSendMsg _ _ _ _, rfl⟩

theorem smtpHandler_heap (g : Globals) {t : Turn} {conn : Connection} (smtp : conn.type = .smtp)
    (ok : BufferOk conn) : HeapStep t conn (smtpHandler g t conn) := by
  have kept : ¬ t.LosesBlock conn → t.loses conn = none := fun keeps => if_neg keeps
  have step := smtpHandler_step g t conn
  generalize smtpHandler g t conn = handled at step ⊢
  cases step with
  | dead dead => exact .kept rfl rfl (kept fun ⟨_, live, _⟩ => by simp [dead] at live)
  | opened _ state =>
    exact .kept (heapCalls_smtpSendMsg _ _ _ _) rfl (kept fun ⟨_, _, data, _⟩ => by simp [state] at data)
  | tlsRetry _ state | tlsFailed _ state | tlsDone _ state =>
    exact .kept rfl rfl (kept fun ⟨_, _, data, _⟩ => by simp [state] at data)
  | noData _ _ nothing =>
    exact .kept (heapCalls_read _ _ _) rfl (kept fun ⟨_, _, _, bytes, _⟩ => bytes nothing)
  | tooLong _ _ _ other =>
    exact .kept (by rw [heapCalls_read, heapCalls_smtpSendMsg]) rfl
      (kept fun ⟨_, _, data, _⟩ => other data)
  | tooLarge _ _ _ _ large =>
    exact .kept (by rw [heapCalls_read, heapCalls_smtpSendMsg]) rfl
      (kept fun ⟨_, _, _, _, fits, _⟩ => Nat.not_lt.mpr fits large)
  | unrecognized _ _ _ other =>
    refine .kept ?_ rfl (kept fun ⟨_, _, data, _⟩ => other data)
    rw [heapCalls_read, heapCalls_cons, heapCalls_smtpSendMsg]
    rfl
  | noMemory chunk reading got data fits failed =>
    have quiet : heapCalls (smtpReceiveMsg t conn ::
        .realloc (conn.messagebuffer.map Block.addr) conn.nextSize none ::
          smtpSendMsg g t { conn with alloccount := conn.alloccount + 1 } .rejectError) = [] := by
      rw [heapCalls_read, heapCalls_cons, heapCalls_smtpSendMsg]
      rfl
    -- the failed `realloc` leaves the old block, and its address is overwritten
    by_cases held : conn.messagebuffer = none
    · exact .kept quiet (by simp [Connection.held, held]) (kept fun ⟨_, _, _, _, _, _, there⟩ => there held)
    · exact .lost quiet rfl (if_pos ⟨smtp, reading.1, data, t.bytes_ne_nil got, fits, failed, held⟩)
  | dataEnd chunk addr _ _ _ _ given =>
    refine .moved addr conn.nextSize (by simp [appendEvents]) ?_ ?_
      (kept fun ⟨_, _, _, _, _, fails, _⟩ => by simp [given] at fails)
    · rw [List.cons_append, heapCalls_read, heapCalls_append, heapCalls_smtpSendMsg, List.append_nil]
      exact heapCalls_appendEvents conn chunk addr
    · simp [Connection.held, Connection.appended, length_appendedBytes t ok chunk]
  | dataMore chunk addr _ _ _ _ given =>
    refine .moved addr conn.nextSize (by simp [appendEvents]) ?_ ?_
      (kept fun ⟨_, _, _, _, _, fails, _⟩ => by simp [given] at fails)
    · rw [heapCalls_read]
      exact heapCalls_appendEvents conn chunk addr
    · simp [Connection.held, Connection.appended, length_appendedBytes t ok chunk]
  | command chunk command _ _ other =>
    obtain ⟨quiet, same⟩ := smtpHandleCommand_heap g t conn command
    refine .kept ?_ same (kept fun ⟨_, _, data, _⟩ => other data)
    rw [heapCalls_read, heapCalls_cons, quiet]
    rfl

theorem heapCalls_httpHandleRead {t : Turn} {conn : Connection} {response : Event}
    (silent : response.heapCalls = []) : heapCalls (httpHandleRead t conn response).events = [] := by
  apply List.flatMap_eq_nil_iff.mpr
  intro e mem
  rw [mem_httpHandleRead mem]
  exact silent

/-- The other services allocate nothing. -/
theorem connectionHandler_heap (g : Globals) (t : Turn) {conn : Connection} (ok : BufferOk conn) :
    HeapStep t conn (connectionHandler g t conn) := by
  by_cases smtp : conn.type = .smtp
  · rw [connectionHandler_smtp g t smtp]
    exact smtpHandler_heap g smtp ok
  · refine .kept ?_ (by rw [connectionHandler_conn g t smtp]) (if_neg fun loses => smtp loses.1)
    unfold connectionHandler
    cases type : conn.type with
    | smtp => exact absurd type smtp
    | smtps =>
      dsimp only [smtpsHandler]
      split
      · rfl
      · split <;> simp [Event.heapCalls]
    | starttls =>
      dsimp only [starttlsHandler]
      split <;> simp
    | http =>
      dsimp only [httpHandler]
      split
      · rfl
      · rw [heapCalls_cons, heapCalls_httpHandleRead rfl]
        rfl
    | https =>
      dsimp only [httpsHandler]
      split
      · rfl
      · split
        · rfl
        · rw [heapCalls_cons, heapCalls_cons, heapCalls_httpHandleRead rfl]
          rfl

section

variable {g : Globals} {t : Turn} {conn : Connection} {heap others : Heap Addr}

theorem holds_connectionHandler (ok : BufferOk conn) (holds : heap.Holds (conn.held.toList ++ others))
    (fresh : ∀ e ∈ (connectionHandler g t conn).events, e.FreshBlock heap) :
    (heapAfter heap (heapCalls (connectionHandler g t conn).events)).Holds
      ((connectionHandler g t conn).conn.held.toList ++ ((t.loses conn).toList ++ others)) := by
  have step := connectionHandler_heap g t ok
  generalize connectionHandler g t conn = handled at step fresh ⊢
  cases step with
  | kept quiet same keeps =>
    rw [quiet, same, keeps]
    exact holds
  | lost quiet gone loses =>
    rw [quiet, gone, loses]
    exact holds
  | moved addr size mem calls moved keeps =>
    have unused : addr ∉ others.map Prod.fst := by
      obtain stays | away := fresh _ mem
      · -- the address it had was no other block's
        intro other
        have distinct := holds.nodup
        cases block : conn.messagebuffer with
        | none => simp [block] at stays
        | some block' =>
          simp only [block, Option.map_some, Option.some.injEq] at stays
          simp only [Connection.held, block, Option.map_some, Option.toList_some, List.singleton_append,
            List.map_cons, List.nodup_cons] at distinct
          exact distinct.1 (stays ▸ other)
      · intro other
        refine away ?_
        rw [(holds.perm.map Prod.fst).mem_iff, List.map_append]
        exact List.mem_append_right _ other
    rw [calls, moved, keeps, heapAfter_append]
    exact holds.release.alloc unused size

theorem holds_serveConnection (ok : BufferOk conn) (holds : heap.Holds (conn.held.toList ++ others))
    (fresh : ∀ e ∈ (connectionHandler g t conn).events, e.FreshBlock heap) :
    (heapAfter heap (heapCalls (serveConnection g t conn).2)).Holds
      (heldBy (serveConnection g t conn).1.toList ++ ((t.loses conn).toList ++ others)) := by
  have handled := holds_connectionHandler ok holds fresh
  unfold serveConnection
  dsimp only
  rw [heapCalls_append, heapCalls_cons, heapAfter_append]
  generalize connectionHandler g t conn = handled' at handled ⊢
  generalize heapAfter heap (heapCalls handled'.events) = heap' at handled ⊢
  obtain ⟨result, left, events⟩ := handled'
  cases result with
  | «continue» =>
    rw [show heldBy _ = left.held.toList from List.append_nil _]
    exact handled
  | reset =>
    -- the record is queued again without its block
    have freed := handled.release
    rw [← heapCalls_free] at freed
    exact freed
  | done | error =>
    have freed := handled.release
    rw [← heapCalls_connectionDeinit] at freed
    exact freed

end

/-! ## Whole runs -/

section

variable {srv : Server} {h : MasterHistory} {queue : ConnectionQueue}

/-- A waiting record is in step with its block, and has one only inside a message. -/
theorem bufferOk_of_reaches {allowed : MasterHistory → ConnectionQueue → MasterInput → Prop}
    (reaches : (master srv).Reaches (· = connQueueInit) allowed h queue) {conn : Connection}
    (waits : conn ∈ queue.contents) :
    BufferOk conn ∧ (conn.state ≠ .mailExpectData → conn.messagebuffer = none) := by
  have lives : ∃ own, OwnSession srv conn own := by
    refine (queued_invariant (fun conn => ∃ own, OwnSession srv conn own) ?_ ?_ reaches).2 conn waits
    · intro _ _ type a _ _
      exact ⟨[], a, type, .start rfl⟩
    · intro _ _ p conn conn' _ _ lived kept
      obtain ⟨own, a, type, reached⟩ := lived
      have next := reached.step (i := p.turn) trivial
      have here : ((session srv.toGlobals).step (some conn) p.turn).1 = some conn' := kept
      rw [here] at next
      exact ⟨_, a, type, next⟩
  obtain ⟨own, a, type, lived⟩ := lives
  by_cases smtp : type = .smtp
  · subst smtp
    have start : (session srv.toGlobals).Reaches (smtpStart srv.toGlobals) Machine.anyStep own
        (some conn) := lived.widen fun s here => ⟨a, _, here⟩
    have inv := (bufferInv_session start conn rfl).2.2
    exact ⟨inv.ok, fun other => inv.ok.null.mpr (inv.outside other).1⟩
  · -- the other services never have a block
    obtain ⟨-, none', count, size⟩ := noBuffer_of_session smtp lived conn rfl
    exact ⟨(BufferOk.empty none' count size).1, fun _ => none'⟩

@[simp] theorem heldBy_nil : heldBy [] = [] := rfl

@[simp] theorem heldBy_cons (conn : Connection) (conns : List Connection) :
    heldBy (conn :: conns) = conn.held.toList ++ heldBy conns := rfl

@[simp] theorem heldBy_append (conns conns' : List Connection) :
    heldBy (conns ++ conns') = heldBy conns ++ heldBy conns' := List.flatMap_append

theorem heapOf_cons (e : Entry ConnectionQueue MasterInput (List Event)) (h : MasterHistory) :
    heapOf (e :: h) = heapAfter (heapOf h) (heapCalls e.output) := by
  rw [heapOf, calls, heapCalls_append, heapAfter_append]
  rfl

/-- An `accept` allocates nothing, and a new record has no block. -/
theorem heapCalls_newConnection (g : Globals) (a : AcceptTurn) (type : ConnectionType)
    (strat : SslStrategy) : heapCalls (.accept a.ret :: (newConnection g a type strat).2) = [] := by
  rw [events_newConnection]
  split <;> rfl

theorem holds_step (holds : (heapOf h).Holds (heldBy queue.contents ++ lostBlocks h)) (wf : queue.Wf)
    (ok : ∀ conn ∈ queue.contents, BufferOk conn) {input : MasterInput}
    (sound : soundMemory srv h queue input) :
    let next := (master srv).step queue input
    let h' := ⟨queue, input, next.2⟩ :: h
    (heapOf h').Holds (heldBy next.1.contents ++ lostBlocks h') := by
  intro next h'
  obtain ⟨released, fresh⟩ := sound
  have heap : heapOf h' = heapAfter (heapOf h) (heapCalls next.2) := heapOf_cons _ h
  rw [heap]
  cases input with
  | accept type a =>
    have same : lostBlocks h' = lostBlocks h := rfl
    have quiet := heapCalls_newConnection srv.toGlobals a type (srv.strategy type)
    have new : (acceptedConnection srv.toGlobals a type (srv.strategy type)).held = none := rfl
    rw [same]
    -- nobody came, there was no room, or the new record waits
    obtain nothing | ⟨-, -, away⟩ | ⟨-, -, room, queued⟩ := acceptStep_cases srv type a released
    · rw [show next = _ from nothing]
      exact holds
    · rw [show next = _ from away, heapCalls_append, quiet, heapCalls_connectionDeinit, new]
      exact holds
    · rw [show next = _ from queued, quiet, Ring.contents_put wf room, heldBy_append, heldBy_cons, new]
      simpa using holds
  | process p =>
    obtain ⟨nothing, idle⟩ | ⟨front, rest, lock, split, back⟩ := processStep_cases srv wf p released
    · have same : lostBlocks h' = lostBlocks h := by
        obtain lock | empty := idle
        · simp [h', lostBlocks, lock]
        · have none' : queue.contents = [] := by rw [← List.length_eq_zero_iff, Ring.length_contents, empty]
          simp [h', lostBlocks, none']
      rw [same, show next = _ from nothing]
      exact holds
    · have lost : lostBlocks h' = (p.turn.loses front).toList ++ lostBlocks h := by
        simp [h', lostBlocks, lock, split]
      rw [split, heldBy_cons, List.append_assoc] at holds
      have calls : ∀ e ∈ (connectionHandler srv.toGlobals p.turn front).events,
          e ∈ (masterStep srv queue (.process p)).2 := by
        intro e mem
        have served : e ∈ (serveConnection srv.toGlobals p.turn front).2 :=
          List.mem_append_left _ mem
        obtain ⟨-, same⟩ | ⟨conn, -, -, -, same⟩ := back
        · rw [same]
          exact served
        · rw [same]
          exact List.mem_append_left _ served
      have sound := holds_serveConnection (g := srv.toGlobals) (t := p.turn)
        (ok front (by rw [split]; exact List.mem_cons_self)) holds fun e mem => fresh e (calls e mem)
      -- the record goes to the end of the queue, what it lost to what was lost before
      have shuffle : ∀ kept lose rest lost : Heap Addr,
          (kept ++ (lose ++ (rest ++ lost))).Perm ((rest ++ kept) ++ (lose ++ lost)) := by
        intro kept lose rest lost
        refine List.perm_iff_count.mpr fun block => ?_
        simp only [List.count_append]
        omega
      rw [lost]
      obtain ⟨contents, same⟩ | ⟨conn, kept, -, contents, same⟩ := back
      · rw [show next.2 = _ from same, show next.1.contents = _ from contents, heldBy_append]
        exact sound.congr (shuffle _ _ _ _)
      · rw [show next.2 = _ from same, show next.1.contents = _ from contents, heapCalls_append,
          heapAfter_append, heapCalls_connectionDeinit]
        rw [kept, Option.toList_some, heldBy_cons, heldBy_nil, List.append_nil] at sound
        have left := sound.release
        exact left.congr (by simpa using shuffle [] _ _ _)

/-- The connections in the middle of a message. -/
def inMessage (queue : ConnectionQueue) : Nat :=
  queue.contents.countP fun conn => conn.state = .mailExpectData

/-- A block is within the limit on messages. -/
theorem total_held {conn : Connection} (ok : BufferOk conn) :
    Heap.total conn.held.toList ≤ esmtpSize := by
  unfold Connection.held
  cases block : conn.messagebuffer with
  | none => exact Nat.zero_le _
  | some block' =>
    have size := ok.block block' block
    have count := ok.count
    simp only [Option.map_some, Option.toList_some, Heap.total, size, smallBufferSize, esmtpSize]
    omega

theorem total_heldBy {conns : List Connection}
    (ok : ∀ conn ∈ conns, BufferOk conn ∧ (conn.state ≠ .mailExpectData → conn.messagebuffer = none)) :
    Heap.total (heldBy conns) ≤
      conns.countP (fun conn => conn.state = .mailExpectData) * esmtpSize := by
  induction conns with
  | nil => exact Nat.zero_le _
  | cons conn conns ih =>
    obtain ⟨⟨here, outside⟩, later⟩ := List.forall_mem_cons.mp ok
    have rest := ih later
    rw [heldBy_cons, Heap.total_append, List.countP_cons]
    by_cases data : conn.state = .mailExpectData
    · have own := total_held here
      simp only [data, decide_true, if_true, Nat.add_mul, Nat.one_mul]
      omega
    · have nothing : conn.held = none := by simp [Connection.held, outside data]
      simpa [nothing, data] using rest

/-- **The memory is accounted for.**  In every run in which the locks are released and the
    allocator gives out nothing in use, the blocks allocated and not freed are those of the
    waiting records and those left behind by a `realloc` that failed; so they take up no
    more than the limit on messages for each connection in the middle of one, and what was
    left behind. -/
theorem memory_accounted
    (reaches : (master srv).Reaches (· = connQueueInit) (soundMemory srv) h queue) :
    (heapOf h).Perm (heldBy queue.contents ++ lostBlocks h) ∧
      (heapOf h).total ≤ inMessage queue * esmtpSize + (lostBlocks h).total := by
  have holds : (heapOf h).Holds (heldBy queue.contents ++ lostBlocks h) := by
    induction reaches with
    | start idle =>
      subst idle
      exact Heap.holds_nil
    | @step h queue input reaches sound ih =>
      have wf := (queued_invariant (fun _ => True) (fun _ _ _ _ _ _ => trivial)
        (fun _ _ _ _ _ _ _ _ _ => trivial) reaches).1
      exact holds_step ih wf (fun conn waits => (bufferOk_of_reaches reaches waits).1) sound
  refine ⟨holds.perm, ?_⟩
  have held := total_heldBy fun _ waits => bufferOk_of_reaches reaches waits
  rw [holds.total_eq, Heap.total_append]
  exact Nat.add_le_add_right held _

end

/-- Two clients in the middle of a message; there is no memory for the second piece of the
    first. -/
def twoMessages : List MasterInput :=
  [.accept .smtp (.onSocket 5 Connection.zero), .accept .smtp (.onSocket 6 Connection.zero),
   .process (.serves .silent), .process (.serves .silent),
   .process (.serves dataTurn), .process (.serves dataTurn),
   .process (.serves { textTurn with realloc := some 7 }),
   .process (.serves { textTurn with realloc := some 8 }),
   .process (.serves { textTurn with realloc := none })]

theorem memory_accounted_twoMessages :
    let last := (master (serverWith none)).trace [] connQueueInit twoMessages
    (heapOf last.1).Perm [(8, 1025), (7, 1025)] ∧ inMessage last.2 = 1 ∧
      (heapOf last.1).total ≤ 1 * esmtpSize + 1025 := by
  intro last
  have admitted : (master (serverWith none)).Admits (soundMemory (serverWith none)) [] connQueueInit
      twoMessages := by
    decide +kernel
  have idle : (master (serverWith none)).Reaches (· = connQueueInit) (soundMemory (serverWith none)) []
      connQueueInit := .start rfl
  have held : heldBy last.2.contents = [(8, 1025)] := by decide +kernel
  have lost : lostBlocks last.1 = [(7, 1025)] := by decide +kernel
  have writing : inMessage last.2 = 1 := by decide +kernel
  have accounted := memory_accounted (idle.trace _ admitted)
  rw [show heldBy _ = _ from held, show lostBlocks _ = _ from lost, show inMessage _ = _ from writing]
    at accounted
  exact ⟨accounted.1, writing, accounted.2⟩

end Femail
