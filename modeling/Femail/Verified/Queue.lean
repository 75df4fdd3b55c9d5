import Femail.Verified.Handler

/-! # The connection queue

`connQueueEnqueue` and `connQueueDequeue` are compared with a bounded FIFO: a
list of at most `connectionQueueCapacity` records.  While the mutex calls
succeed the two agree on every sequence of operations
(`connQueue_refines_boundedFifo`).  When they may fail, an operation whose
`unlock` fails has already changed the queue and still reports a failure;
`failed_queue_operation_unchanged_iff` says exactly when a reported failure has left the
queue alone.
-/

namespace Femail

open Foundation

/-! ## What the operations do -/

theorem connQueueEnqueue_eq (lock unlock : Bool) (now : Time) (queue : ConnectionQueue)
    (conn : Connection) :
    connQueueEnqueue lock unlock now queue conn =
      if lock = true ∧ queue.count ≠ connectionQueueCapacity then
        (if unlock then 0 else 1, queue.put { conn with timerefreshed := now })
      else (1, queue) := by
  unfold connQueueEnqueue
  cases lock with
  | false => rfl
  | true =>
    by_cases full : queue.count = connectionQueueCapacity
    · simp [full]
    · cases unlock <;> simp [full]

theorem connQueueDequeue_eq (lock unlock : Bool) (queue : ConnectionQueue) (out : Connection) :
    connQueueDequeue lock unlock queue out =
      if lock = true ∧ queue.count ≠ 0 then
        (if unlock then 0 else 1, queue.take, queue.slot queue.tail)
      else (1, queue, out) := by
  unfold connQueueDequeue
  cases lock with
  | false => rfl
  | true =>
    by_cases empty : queue.count = 0
    · simp [empty]
    · cases unlock <;> simp [empty]

theorem wf_connQueueEnqueue (lock unlock : Bool) (now : Time) {queue : ConnectionQueue}
    (wf : queue.Wf) (conn : Connection) : (connQueueEnqueue lock unlock now queue conn).2.Wf := by
  rw [connQueueEnqueue_eq]
  split
  · rename_i room
    exact wf.put room.2 _
  · exact wf

theorem wf_connQueueDequeue (lock unlock : Bool) {queue : ConnectionQueue} (wf : queue.Wf)
    (out : Connection) : (connQueueDequeue lock unlock queue out).2.1.Wf := by
  rw [connQueueDequeue_eq]
  split
  · rename_i nonempty
    exact wf.take nonempty.2
  · exact wf

/-! ## The bounded FIFO -/

inductive QueueOp where
  | enqueue (conn : Connection) (now : Time)
  | dequeue (out : Connection)

/-- The queue under operations whose mutex calls succeed; an output is the result
    and, for a dequeue, the record it hands out. -/
def connQueue : Machine ConnectionQueue QueueOp (Result × Option Connection) where
  step
    | queue, .enqueue conn now =>
      let (result, queue) := connQueueEnqueue true true now queue conn
      (queue, result, none)
    | queue, .dequeue out =>
      let (result, queue, conn) := connQueueDequeue true true queue out
      (queue, result, some conn)

/-- The abstract queue: the records held, oldest first. -/
def boundedFifo : Machine (List Connection) QueueOp (Result × Option Connection) where
  step
    | held, .enqueue conn now =>
      if held.length = connectionQueueCapacity then (held, 1, none)
      else (held ++ [{ conn with timerefreshed := now }], 0, none)
    | [], .dequeue out => ([], 1, some out)
    | conn :: held, .dequeue _ => (held, 0, some conn)

/-- A ring stands for a list of records. -/
def Represents (queue : ConnectionQueue) (held : List Connection) : Prop :=
  queue.Wf ∧ queue.contents = held

theorem connQueue_step (queue : ConnectionQueue) (held : List Connection) (op : QueueOp)
    (represents : Represents queue held) :
    (connQueue.step queue op).2 = (boundedFifo.step held op).2 ∧
      Represents (connQueue.step queue op).1 (boundedFifo.step held op).1 := by
  obtain ⟨wf, rfl⟩ := represents
  cases op with
  | enqueue conn now =>
    by_cases full : queue.count = connectionQueueCapacity
    · simp [connQueue, boundedFifo, connQueueEnqueue_eq, full, Represents, wf]
    · have appended := Ring.contents_put wf full { conn with timerefreshed := now }
      simp [connQueue, boundedFifo, connQueueEnqueue_eq, full, Represents, wf.put full, appended]
  | dequeue out =>
    by_cases empty : queue.count = 0
    · have none : queue.contents = [] := List.length_eq_zero_iff.mp (by simpa using empty)
      simp [connQueue, boundedFifo, connQueueDequeue_eq, empty, Represents, wf, none]
    · have first := Ring.contents_take empty
      rw [first]
      simp [connQueue, boundedFifo, connQueueDequeue_eq, empty, Represents, wf.take empty]

theorem represents_connQueueInit : Represents connQueueInit [] :=
  ⟨Ring.wf_cleared _, rfl⟩

/-! ## Conservation -/

/-- The records that a sequence of operations with these outputs put in. -/
def enqueued : List QueueOp → List (Result × Option Connection) → List Connection
  | .enqueue conn now :: ops, (result, _) :: outputs =>
    if result = 0 then { conn with timerefreshed := now } :: enqueued ops outputs
    else enqueued ops outputs
  | .dequeue _ :: ops, _ :: outputs => enqueued ops outputs
  | _, _ => []

/-- The records that it took out. -/
def dequeued : List QueueOp → List (Result × Option Connection) → List Connection
  | .dequeue _ :: ops, (result, conn) :: outputs =>
    if result = 0 then conn.toList ++ dequeued ops outputs else dequeued ops outputs
  | .enqueue _ _ :: ops, _ :: outputs => dequeued ops outputs
  | _, _ => []

theorem boundedFifo_conserves (held : List Connection) (ops : List QueueOp) :
    held ++ enqueued ops (boundedFifo.run held ops).1 =
      dequeued ops (boundedFifo.run held ops).1 ++ (boundedFifo.run held ops).2 := by
  -- on the operations; what is held at the start counts as put in first
  induction ops generalizing held with
  | nil => simp [Machine.run, enqueued, dequeued]
  | cons op ops ih =>
    cases op with
    | enqueue conn now =>
      by_cases full : held.length = connectionQueueCapacity
      · have rest := ih held
        simpa [Machine.run, boundedFifo, enqueued, dequeued, full] using rest
      · have rest := ih (held ++ [{ conn with timerefreshed := now }])
        simpa [Machine.run, boundedFifo, enqueued, dequeued, full] using rest
    | dequeue out =>
      cases held with
      | nil =>
        have rest := ih []
        simpa [Machine.run, boundedFifo, enqueued, dequeued] using rest
      | cons conn held =>
        have rest := ih held
        simpa [Machine.run, boundedFifo, enqueued, dequeued] using rest

/-- **The queue refines a bounded FIFO.**  After every sequence of operations the
    indices fit together, the contents are those of the FIFO and the outputs were
    the same; what was put in is what came out followed by what is held; and the
    next operation fails exactly on a full, respectively empty, queue, which it
    leaves as it is. -/
theorem connQueue_refines_boundedFifo (ops : List QueueOp) :
    let queue := (connQueue.run connQueueInit ops).2
    let outputs := (connQueue.run connQueueInit ops).1
    queue.count ≤ connectionQueueCapacity ∧
      queue.head < connectionQueueCapacity ∧ queue.tail < connectionQueueCapacity ∧
      queue.head = (queue.tail + queue.count) % connectionQueueCapacity ∧
      queue.contents = (boundedFifo.run [] ops).2 ∧
      outputs = (boundedFifo.run [] ops).1 ∧
      enqueued ops outputs = dequeued ops outputs ++ queue.contents ∧
      (∀ now conn,
        ((connQueueEnqueue true true now queue conn).1 ≠ 0 ↔
          queue.contents.length = connectionQueueCapacity) ∧
        ((connQueueEnqueue true true now queue conn).1 ≠ 0 →
          (connQueueEnqueue true true now queue conn).2 = queue)) ∧
      (∀ out,
        ((connQueueDequeue true true queue out).1 ≠ 0 ↔ queue.contents = []) ∧
        ((connQueueDequeue true true queue out).1 ≠ 0 →
          (connQueueDequeue true true queue out).2 = (queue, out)) ∧
        ((connQueueDequeue true true queue out).1 = 0 →
          queue.contents = (connQueueDequeue true true queue out).2.2 ::
            (connQueueDequeue true true queue out).2.1.contents)) := by
  intro queue outputs
  obtain ⟨sameOutputs, wf, sameContents⟩ :=
    Machine.run_lockstep connQueue_step represents_connQueueInit ops
  -- the outputs and the contents are those of the list, so it is enough to count there
  have conserved := boundedFifo_conserves [] ops
  rw [← sameOutputs, ← sameContents, List.nil_append] at conserved
  refine ⟨wf.count_le, wf.head_lt, wf.tail_lt, wf.head_eq, sameContents, sameOutputs, conserved,
    ?_, ?_⟩
  · intro now conn
    rw [Ring.length_contents, connQueueEnqueue_eq]
    by_cases full : queue.count = connectionQueueCapacity
    · simp [full]
    · simp [full]
  · intro out
    rw [connQueueDequeue_eq]
    by_cases empty : queue.count = 0
    · have none : queue.contents = [] := List.length_eq_zero_iff.mp (by simpa using empty)
      simp [empty, none]
    · have first := Ring.contents_take empty
      simp [empty, first]

/-! ## Reported failures -/

/-- A queue operation that takes the lock and is not turned away releases it. -/
def Releases (lock unlock : Bool) (turnedAway : Prop) : Prop :=
  lock = true → ¬ turnedAway → unlock = true

theorem enqueue_unchanged_iff (lock unlock : Bool) (now : Time) (queue : ConnectionQueue)
    (conn : Connection) :
    ((connQueueEnqueue lock unlock now queue conn).1 ≠ 0 →
      (connQueueEnqueue lock unlock now queue conn).2.contents = queue.contents) ↔
    Releases lock unlock (queue.count = connectionQueueCapacity) := by
  rw [connQueueEnqueue_eq]
  by_cases updates : lock = true ∧ queue.count ≠ connectionQueueCapacity
  · obtain ⟨locked, room⟩ := updates
    have changed : (queue.put { conn with timerefreshed := now }).contents ≠ queue.contents := by
      intro same
      have := congrArg List.length same
      simp [Ring.put] at this
    cases unlock <;> simp [Releases, locked, room, changed]
  · -- no update: nothing to leave a trace of, and the condition is empty
    rw [if_neg updates]
    simp only [not_and] at updates
    constructor
    · intro _ locked room
      exact absurd room (updates locked)
    · intro _ _
      rfl

theorem dequeue_unchanged_iff (lock unlock : Bool) (queue : ConnectionQueue) (out : Connection) :
    ((connQueueDequeue lock unlock queue out).1 ≠ 0 →
      (connQueueDequeue lock unlock queue out).2.1.contents = queue.contents) ↔
    Releases lock unlock (queue.count = 0) := by
  rw [connQueueDequeue_eq]
  by_cases updates : lock = true ∧ queue.count ≠ 0
  · obtain ⟨locked, nonempty⟩ := updates
    have changed : queue.take.contents ≠ queue.contents := by
      intro same
      have := congrArg List.length same
      simp only [Ring.length_contents, Ring.take] at this
      omega
    cases unlock <;> simp [Releases, locked, nonempty, changed]
  · rw [if_neg updates]
    simp only [not_and] at updates
    constructor
    · intro _ locked nonempty
      exact absurd nonempty (updates locked)
    · intro _ _
      rfl

/-- Only `connection_deinit` closes the socket. -/
theorem close_notMem_connectionHandler (g : Globals) (t : Turn) (conn : Connection) (fd : Fd) :
    Event.close fd ∉ (connectionHandler g t conn).events := by
  intro mem
  obtain keeps | upgrades := (footprint_connectionHandler g t conn).tls
  · exact keeps.within _ mem
  · obtain ⟨before, calls, -, within⟩ := upgrades.calls
    rw [calls] at mem
    simp only [List.mem_append, List.mem_cons, reduceCtorEq, List.not_mem_nil, or_false] at mem
    exact within _ mem

theorem close_notMem_newConnection (g : Globals) (a : AcceptTurn) (type : ConnectionType)
    (strat : SslStrategy) (fd : Fd) : Event.close fd ∉ (newConnection g a type strat).2 := by
  cases strat <;> simp [newConnection, connectionInit]

theorem close_notMem_settled {handled : Handled} {conn : Connection}
    (kept : (settleConnection handled).1 = some conn) (fd : Fd) :
    Event.close fd ∉ (settleConnection handled).2 := by
  unfold settleConnection at kept ⊢
  cases result : handled.result <;> simp_all [resetConnection]

theorem close_mem_connectionDeinit (conn : Connection) :
    Event.close conn.clientsocket ∈ connectionDeinit conn := by
  simp [connectionDeinit]

/-- What `handle_connection` does when there is no connection to accept. -/
theorem handleConnection_of_failed (g : Globals) {a : AcceptTurn} (type : ConnectionType)
    (strat : SslStrategy) (queue : ConnectionQueue) (failed : a.ret = -1) :
    (handleConnection g a type strat queue).2 = (queue, []) := by
  unfold handleConnection getAcceptState
  rw [if_pos failed]
  by_cases blocked : a.errno = ewouldblock
  · rw [if_pos blocked]
  · rw [if_neg blocked]

/-- What it does with a connection: it queues the record, and deinitialises it if the
    enqueue reports a failure. -/
theorem handleConnection_of_accepted (g : Globals) {a : AcceptTurn} (type : ConnectionType)
    (strat : SslStrategy) (queue : ConnectionQueue) (given : a.ret ≠ -1) :
    let conn := (newConnection g a type strat).1
    let enqueue := connQueueEnqueue a.lock a.unlock a.now queue conn
    (handleConnection g a type strat queue).2 =
      (enqueue.2, .accept a.ret :: (newConnection g a type strat).2 ++
        if enqueue.1 ≠ 0 then connectionDeinit conn else []) := by
  have content : getAcceptState a.ret a.errno = .content := by simp [getAcceptState, given]
  simp only [handleConnection, content]
  split
  · rfl
  · rw [List.append_nil]

@[simp] theorem clientsocket_newConnection (g : Globals) (a : AcceptTurn) (type : ConnectionType)
    (strat : SslStrategy) : (newConnection g a type strat).1.clientsocket = a.ret := by
  cases strat <;> cases type <;> rfl

/-- `handle_connection` rejects a connection that is not also queued exactly when
    an update of the queue releases the lock. -/
theorem handleConnection_unchanged_iff (g : Globals) (a : AcceptTurn) (type : ConnectionType)
    (strat : SslStrategy) (queue : ConnectionQueue) :
    (Event.close a.ret ∈ (handleConnection g a type strat queue).2.2 →
      (handleConnection g a type strat queue).2.1.contents = queue.contents) ↔
    (a.ret ≠ -1 → Releases a.lock a.unlock (queue.count = connectionQueueCapacity)) := by
  by_cases failed : a.ret = -1
  · rw [handleConnection_of_failed g type strat queue failed]
    simp [failed]
  · have enqueue := enqueue_unchanged_iff a.lock a.unlock a.now queue (newConnection g a type strat).1
    have opened := close_notMem_newConnection g a type strat a.ret
    have deinit := close_mem_connectionDeinit (newConnection g a type strat).1
    rw [clientsocket_newConnection] at deinit
    rw [handleConnection_of_accepted g type strat queue failed, ← enqueue]
    by_cases result :
        (connQueueEnqueue a.lock a.unlock a.now queue (newConnection g a type strat).1).1 = 0
    · simp [result, opened, failed]
    · simp [result, deinit, failed]

/-- What `process_connection` does when the dequeue fails. -/
theorem processConnection_of_failed (g : Globals) (p : ProcessTurn) (queue : ConnectionQueue)
    (failed : (connQueueDequeue p.dequeueLock p.dequeueUnlock queue Connection.zero).1 ≠ 0) :
    processConnection g p queue =
      ((connQueueDequeue p.dequeueLock p.dequeueUnlock queue Connection.zero).2.1, []) := by
  simp [processConnection, failed]

/-- A dequeue that reports success has taken the oldest connection. -/
theorem connQueueDequeue_of_taken {lock unlock : Bool} {queue : ConnectionQueue} {out : Connection}
    (taken : (connQueueDequeue lock unlock queue out).1 = 0) :
    (lock = true ∧ unlock = true ∧ queue.count ≠ 0) ∧
      connQueueDequeue lock unlock queue out = (0, queue.take, queue.slot queue.tail) := by
  have dequeue := connQueueDequeue_eq lock unlock queue out
  split at dequeue
  · rename_i updates
    cases unlock with
    | false =>
      rw [dequeue] at taken
      cases taken
    | true => exact ⟨⟨updates.1, rfl, updates.2⟩, dequeue⟩
  · rw [dequeue] at taken
    cases taken

theorem processConnection_of_taken (g : Globals) (p : ProcessTurn) (queue : ConnectionQueue)
    (taken : (connQueueDequeue p.dequeueLock p.dequeueUnlock queue Connection.zero).1 = 0) :
    processConnection g p queue = finishConnection g p queue.take (queue.slot queue.tail) := by
  rw [processConnection_eq, (connQueueDequeue_of_taken taken).2]
  rfl

/-- What it does with a connection it has dequeued and does not keep. -/
theorem finishConnection_of_finished (g : Globals) (p : ProcessTurn) (queue : ConnectionQueue)
    (front : Connection)
    (finished : (settleConnection (connectionHandler g p.turn front)).1 = none) :
    finishConnection g p queue front = (queue, (serveConnection g p.turn front).2) := by
  simp [finishConnection, finished, serveConnection]

/-- What it does with a connection it has dequeued and keeps. -/
theorem finishConnection_of_kept (g : Globals) (p : ProcessTurn) (queue : ConnectionQueue)
    (front conn : Connection)
    (kept : (settleConnection (connectionHandler g p.turn front)).1 = some conn) :
    let enqueue := connQueueEnqueue p.enqueueLock p.enqueueUnlock p.turn.now queue conn
    finishConnection g p queue front =
      if enqueue.1 ≠ 0 then (enqueue.2, (serveConnection g p.turn front).2 ++ connectionDeinit conn)
      else (enqueue.2, (serveConnection g p.turn front).2) := by
  simp [finishConnection, kept, serveConnection]

/-- **When a failed queue operation leaves no trace.**  A reported failure, of the
    operations and of the two callers that deinitialise a connection after one,
    has left the queue alone exactly when the operation, once it holds the lock
    and is not turned away by a full or empty queue, also releases the lock. -/
theorem failed_queue_operation_unchanged_iff (queue : ConnectionQueue) :
    (∀ lock unlock now conn,
      ((connQueueEnqueue lock unlock now queue conn).1 ≠ 0 →
        (connQueueEnqueue lock unlock now queue conn).2.contents = queue.contents) ↔
      Releases lock unlock (queue.count = connectionQueueCapacity)) ∧
    (∀ lock unlock out,
      ((connQueueDequeue lock unlock queue out).1 ≠ 0 →
        (connQueueDequeue lock unlock queue out).2.1.contents = queue.contents) ↔
      Releases lock unlock (queue.count = 0)) ∧
    (∀ g a type strat,
      (Event.close a.ret ∈ (handleConnection g a type strat queue).2.2 →
        (handleConnection g a type strat queue).2.1.contents = queue.contents) ↔
      (a.ret ≠ -1 → Releases a.lock a.unlock (queue.count = connectionQueueCapacity))) ∧
    (∀ g (p : ProcessTurn),
      ((connQueueDequeue p.dequeueLock p.dequeueUnlock queue Connection.zero).1 ≠ 0 →
        (processConnection g p queue).1.contents = queue.contents) ↔
      Releases p.dequeueLock p.dequeueUnlock (queue.count = 0)) ∧
    (∀ g (p : ProcessTurn) conn,
      (connQueueDequeue p.dequeueLock p.dequeueUnlock queue Connection.zero).1 = 0 →
      (settleConnection (connectionHandler g p.turn (queue.slot queue.tail))).1 = some conn →
      ((Event.close conn.clientsocket ∈ (processConnection g p queue).2 →
        (processConnection g p queue).1.contents = queue.take.contents) ↔
      Releases p.enqueueLock p.enqueueUnlock (queue.take.count = connectionQueueCapacity))) := by
  refine ⟨?_, ?_, ?_, ?_, ?_⟩
  · intro lock unlock now conn
    exact enqueue_unchanged_iff lock unlock now queue conn
  · intro lock unlock out
    exact dequeue_unchanged_iff lock unlock queue out
  · intro g a type strat
    exact handleConnection_unchanged_iff g a type strat queue
  · intro g p
    rw [← dequeue_unchanged_iff p.dequeueLock p.dequeueUnlock queue Connection.zero]
    constructor
    · intro unchanged failed
      have := unchanged failed
      rwa [processConnection_of_failed g p queue failed] at this
    · intro unchanged failed
      rw [processConnection_of_failed g p queue failed]
      exact unchanged failed
  · intro g p conn taken kept
    rw [← enqueue_unchanged_iff p.enqueueLock p.enqueueUnlock p.turn.now queue.take conn,
      processConnection_of_taken g p queue taken, finishConnection_of_kept g p _ _ conn kept]
    -- a close among the calls can only be that of the failed enqueue
    have handler := close_notMem_connectionHandler g p.turn (queue.slot queue.tail) conn.clientsocket
    have settled := close_notMem_settled kept conn.clientsocket
    have deinit := close_mem_connectionDeinit conn
    split
    · rename_i failed
      simp [failed, deinit]
    · rename_i succeeded
      simp only [ne_eq, not_not] at succeeded
      simp [succeeded, serveConnection, handler, settled]

/-- A failed unlock: the enqueue reports a failure and the record is queued, so
    `handle_connection` closes a socket that the queue still holds. -/
theorem enqueue_unlock_failure_queues :
    (connQueueEnqueue true false 0 connQueueInit Connection.zero).1 ≠ 0 ∧
      (connQueueEnqueue true false 0 connQueueInit Connection.zero).2.contents ≠
        connQueueInit.contents := by
  refine ⟨by decide, ?_⟩
  intro same
  have lengths := congrArg List.length same
  rw [Ring.length_contents, Ring.length_contents] at lengths
  exact absurd lengths (by decide)

end Femail
