import Femail.Verified.Queue

/-! # The master thread as a set of sessions

With working mutex calls a step of the master thread is one of four moves on the
list of waiting connections (`MasterStep`).  Every waiting connection is then a
reachable state of its own `session`, and every `process_connection` is a step of
one (`processed_session`), so what holds of all runs of `session` holds of each
connection of the server.
-/

namespace Femail

open Foundation

/-- The record a new connection waits in the queue with. -/
def acceptedConnection (g : Globals) (a : AcceptTurn) (type : ConnectionType)
    (strat : SslStrategy) : Connection :=
  { (newConnection g a type strat).1 with timerefreshed := a.now }

section

variable (g : Globals) (a : AcceptTurn) (type : ConnectionType) (strat : SslStrategy)

@[simp] theorem clientsocket_acceptedConnection :
    (acceptedConnection g a type strat).clientsocket = a.ret :=
  clientsocket_newConnection g a type strat

@[simp] theorem type_acceptedConnection : (acceptedConnection g a type strat).type = type := by
  cases strat <;> cases type <;> rfl

@[simp] theorem sslstrat_acceptedConnection :
    (acceptedConnection g a type strat).sslstrat = strat := by
  cases strat <;> cases type <;> rfl

@[simp] theorem live_acceptedConnection : (acceptedConnection g a type strat).live = true := by
  cases strat <;> cases type <;> rfl

@[simp] theorem messagebufferend_acceptedConnection :
    (acceptedConnection g a type strat).messagebufferend = 0 := rfl

theorem state_acceptedConnection :
    (acceptedConnection g a type strat).state =
      match type with
      | .smtp | .smtps | .starttls => .mailOpened
      | .http | .https => .httpOpened := by
  cases strat <;> cases type <;> rfl

@[simp] theorem state_acceptedConnection_smtp :
    (acceptedConnection g a .smtp strat).state = .mailOpened := by
  cases strat <;> rfl

/-- Only implicit TLS gives a new connection an SSL object of its own. -/
theorem sslconn_acceptedConnection :
    (acceptedConnection g a type strat).sslconn =
      if strat = .implicitTls then sslNewResult g a.sslNew else a.leftover.sslconn := by
  cases strat <;> cases type <;> rfl

theorem events_newConnection :
    (newConnection g a type strat).2 =
      if strat = .implicitTls then
        [.sslNew g.sslctx (sslNewResult g a.sslNew), .sslSetFd (sslNewResult g a.sslNew) a.ret]
      else [] := by
  cases strat <;> rfl

theorem connectionDeinit_newConnection :
    connectionDeinit (newConnection g a type strat).1 =
      [.sslFree (acceptedConnection g a type strat).sslconn, .free none, .close a.ret] := by
  cases strat <;> cases type <;> rfl

/-- The calls of `handle_connection`: which of its branches runs does not depend
    on the record. -/
theorem events_handleConnection (queue : ConnectionQueue) :
    (handleConnection g a type strat queue).2.2 =
      if a.ret = -1 then []
      else .accept a.ret :: (newConnection g a type strat).2 ++
        if a.lock = true ∧ queue.count ≠ connectionQueueCapacity ∧ a.unlock = true then []
        else connectionDeinit (newConnection g a type strat).1 := by
  by_cases failed : a.ret = -1
  · rw [if_pos failed, handleConnection_of_failed g type strat queue failed]
  · rw [if_neg failed, handleConnection_of_accepted g type strat queue failed, connQueueEnqueue_eq]
    by_cases updates : a.lock = true ∧ queue.count ≠ connectionQueueCapacity
    · cases unlock : a.unlock <;> simp [updates]
    · have fails : ¬(a.lock = true ∧ queue.count ≠ connectionQueueCapacity ∧ a.unlock = true) :=
        fun all => updates ⟨all.1, all.2.1⟩
      simp [if_neg updates, if_neg fails]

end

/-- An `accept` that returns `fd`, with `leftover` in the place of the local record
    and working mutex calls. -/
def AcceptTurn.onSocket (fd : Fd) (leftover : Connection) : AcceptTurn where
  ret := fd
  errno := 0
  leftover := leftover
  timeinitialized := 0
  timerefreshed := 0
  sslNew := some 1
  lock := true
  unlock := true
  now := 0

/-- A `process_connection` with working mutex calls. -/
def ProcessTurn.serves (t : Turn) : ProcessTurn := ⟨t, true, true, true, true⟩

/-! ## Moves on the waiting connections -/

def AcceptTurn.MutexOk (a : AcceptTurn) : Prop := a.lock = true ∧ a.unlock = true

def ProcessTurn.MutexOk (p : ProcessTurn) : Prop :=
  p.dequeueLock = true ∧ p.dequeueUnlock = true ∧ p.enqueueLock = true ∧ p.enqueueUnlock = true

def MasterInput.MutexOk : MasterInput → Prop
  | .accept _ a => a.MutexOk
  | .process p => p.MutexOk

instance : DecidablePred MasterInput.MutexOk
  | .accept _ _ => inferInstanceAs (Decidable (_ ∧ _))
  | .process _ => inferInstanceAs (Decidable (_ ∧ _))

/-- What a step with working mutex calls does to the waiting connections `held`,
    oldest first. -/
inductive MasterStep (srv : Server) (held : List Connection) :
    MasterInput → List Connection → List Event → Prop where
  | quiet (type : ConnectionType) (a : AcceptTurn) : srv.active type = false ∨ a.ret = -1 →
      MasterStep srv held (.accept type a) held []
  | rejected (type : ConnectionType) (a : AcceptTurn) : srv.active type = true → a.ret ≠ -1 →
      held.length = connectionQueueCapacity →
      MasterStep srv held (.accept type a) held
        (.accept a.ret :: (newConnection srv.toGlobals a type (srv.strategy type)).2 ++
          connectionDeinit (newConnection srv.toGlobals a type (srv.strategy type)).1)
  | accepted (type : ConnectionType) (a : AcceptTurn) : srv.active type = true → a.ret ≠ -1 →
      held.length ≠ connectionQueueCapacity →
      MasterStep srv held (.accept type a)
        (held ++ [acceptedConnection srv.toGlobals a type (srv.strategy type)])
        (.accept a.ret :: (newConnection srv.toGlobals a type (srv.strategy type)).2)
  | idle (p : ProcessTurn) : held = [] → MasterStep srv held (.process p) held []
  | served (p : ProcessTurn) (conn : Connection) (rest : List Connection) : held = conn :: rest →
      MasterStep srv held (.process p)
        (rest ++ (serveConnection srv.toGlobals p.turn conn).1.toList)
        (serveConnection srv.toGlobals p.turn conn).2

theorem handleConnection_step (srv : Server) (type : ConnectionType) (a : AcceptTurn)
    {queue : ConnectionQueue} (wf : queue.Wf) (ok : a.MutexOk) (up : srv.active type = true) :
    let next := handleConnection srv.toGlobals a type (srv.strategy type) queue
    MasterStep srv queue.contents (.accept type a) next.2.1.contents next.2.2 := by
  obtain ⟨lock, unlock⟩ := ok
  dsimp only
  by_cases failed : a.ret = -1
  · rw [handleConnection_of_failed _ _ _ _ failed]
    exact .quiet type a (Or.inr failed)
  · rw [handleConnection_of_accepted _ _ _ _ failed]
    by_cases full : queue.count = connectionQueueCapacity
    · -- the lock and the unlock succeed, so only a full queue refuses
      have rejected : MasterStep srv queue.contents (.accept type a) _ _ := .rejected type a up failed
        (queue.length_contents.trans full)
      simpa [connQueueEnqueue, lock, unlock, full] using rejected
    · have accepted : MasterStep srv queue.contents (.accept type a) _ _ := .accepted type a up failed
        (fun length => full (queue.length_contents.symm.trans length))
      rw [acceptedConnection, ← Ring.contents_put wf full] at accepted
      simpa [connQueueEnqueue, lock, unlock, full] using accepted

/-- `process_connection` puts a connection it keeps into the slot it took it from. -/
theorem processConnection_step (srv : Server) (p : ProcessTurn) {queue : ConnectionQueue}
    (wf : queue.Wf) (ok : p.MutexOk) :
    let next := processConnection srv.toGlobals p queue
    MasterStep srv queue.contents (.process p) next.1.contents next.2 := by
  obtain ⟨lock, unlock, lockAgain, unlockAgain⟩ := ok
  dsimp only
  by_cases empty : queue.count = 0
  · have nothing : queue.contents = [] := List.eq_nil_of_length_eq_zero (by simpa using empty)
    have idle : MasterStep srv queue.contents (.process p) _ _ := .idle p nothing
    simpa [processConnection, connQueueDequeue, lock, unlock, empty] using idle
  · have front := Ring.contents_take empty
    have served : MasterStep srv queue.contents (.process p) _ _ := .served p _ _ front
    -- the slot just freed is free for the connection to go back to
    have room := wf.take_count_ne empty
    have taken : (connQueueDequeue p.dequeueLock p.dequeueUnlock queue Connection.zero).1 = 0 := by
      simp [connQueueDequeue, lock, unlock, empty]
    cases kept : (settleConnection
        (connectionHandler srv.toGlobals p.turn (queue.slot queue.tail))).1 with
    | none =>
      rw [processConnection_of_taken _ p queue taken, finishConnection_of_finished _ p _ _ kept]
      simpa [serveConnection, kept] using served
    | some conn =>
      have queued := Ring.contents_put (wf.take empty) room { conn with timerefreshed := p.turn.now }
      rw [processConnection_of_taken _ p queue taken, finishConnection_of_kept _ p _ _ conn kept]
      simpa [serveConnection, kept, connQueueEnqueue, lockAgain, unlockAgain, room, queued] using served

theorem masterStep_moves (srv : Server) {queue : ConnectionQueue} {input : MasterInput}
    (wf : queue.Wf) (ok : input.MutexOk) :
    MasterStep srv queue.contents input (masterStep srv queue input).1.contents
      (masterStep srv queue input).2 := by
  cases input with
  | process p => exact processConnection_step srv p wf ok
  | accept type a =>
    unfold masterStep
    by_cases up : srv.active type = true
    · simp only [up, if_true]
      exact handleConnection_step srv type a wf ok up
    · simp only [up]
      exact .quiet type a (Or.inl (by simpa using up))

theorem wf_finishConnection (g : Globals) (p : ProcessTurn) {queue : ConnectionQueue}
    (wf : queue.Wf) (conn : Connection) : (finishConnection g p queue conn).1.Wf := by
  unfold finishConnection
  dsimp only
  split
  · split
    · exact wf_connQueueEnqueue _ _ _ wf _
    · exact wf_connQueueEnqueue _ _ _ wf _
  · exact wf

theorem wf_processConnection (g : Globals) (p : ProcessTurn) {queue : ConnectionQueue}
    (wf : queue.Wf) : (processConnection g p queue).1.Wf := by
  have taken := wf_connQueueDequeue p.dequeueLock p.dequeueUnlock wf Connection.zero
  rw [processConnection_eq]
  dsimp only
  split
  · exact taken
  · exact wf_finishConnection g p taken _

theorem queue_handleConnection (g : Globals) (a : AcceptTurn) (type : ConnectionType)
    (strat : SslStrategy) (queue : ConnectionQueue) :
    (handleConnection g a type strat queue).2.1 =
      if a.ret = -1 then queue
      else (connQueueEnqueue a.lock a.unlock a.now queue (newConnection g a type strat).1).2 := by
  by_cases failed : a.ret = -1
  · rw [if_pos failed, handleConnection_of_failed g type strat queue failed]
  · rw [if_neg failed, handleConnection_of_accepted g type strat queue failed]

/-- The indices of the queue fit together after any step, whatever the mutex calls
    do. -/
theorem wf_masterStep (srv : Server) {queue : ConnectionQueue} (wf : queue.Wf)
    (input : MasterInput) : (masterStep srv queue input).1.Wf := by
  cases input with
  | process p => exact wf_processConnection srv.toGlobals p wf
  | accept type a =>
    unfold masterStep
    by_cases up : srv.active type = true
    · simp only [up, if_true, queue_handleConnection]
      split
      · exact wf
      · exact wf_connQueueEnqueue _ _ _ wf _
    · simp only [up]
      exact wf

/-! ## Whatever the mutex calls do -/

/-- An enqueue adds nothing but its argument. -/
theorem mem_connQueueEnqueue {lock unlock : Bool} {now : Time} {queue : ConnectionQueue}
    (wf : queue.Wf) {conn conn' : Connection}
    (mem : conn' ∈ (connQueueEnqueue lock unlock now queue conn).2.contents) :
    conn' ∈ queue.contents ∨ conn' = { conn with timerefreshed := now } := by
  rw [connQueueEnqueue_eq] at mem
  split at mem
  · rename_i updates
    rw [Ring.contents_put wf updates.2, List.mem_append, List.mem_singleton] at mem
    exact mem
  · exact Or.inl mem

theorem mem_connQueueDequeue {lock unlock : Bool} {queue : ConnectionQueue} {out conn : Connection}
    (mem : conn ∈ (connQueueDequeue lock unlock queue out).2.1.contents) :
    conn ∈ queue.contents := by
  rw [connQueueDequeue_eq] at mem
  split at mem
  · rename_i updates
    rw [Ring.contents_take updates.2]
    exact List.mem_cons_of_mem _ mem
  · exact mem

/-- Accepting adds nothing but the new connection. -/
theorem mem_handleConnection {g : Globals} {a : AcceptTurn} {type : ConnectionType}
    {strat : SslStrategy} {queue : ConnectionQueue} (wf : queue.Wf) {conn : Connection}
    (mem : conn ∈ (handleConnection g a type strat queue).2.1.contents) :
    conn ∈ queue.contents ∨ conn = acceptedConnection g a type strat := by
  rw [queue_handleConnection] at mem
  split at mem
  · exact Or.inl mem
  · exact mem_connQueueEnqueue wf mem

/-- What becomes of a connection that its handler keeps, once it is out of the queue. -/
theorem finishConnection_of_served {g : Globals} {p : ProcessTurn} {queue : ConnectionQueue}
    (wf : queue.Wf) (room : queue.count ≠ connectionQueueCapacity) {front conn : Connection}
    (served : (serveConnection g p.turn front).1 = some conn) :
    let next := finishConnection g p queue front
    (p.enqueueLock = true ∧ next.1.contents = queue.contents ++ [conn] ∧
        next.2 = (serveConnection g p.turn front).2 ++
          if p.enqueueUnlock then [] else connectionDeinit conn) ∨
      (p.enqueueLock = false ∧ next.1.contents = queue.contents ∧
        next.2 = (serveConnection g p.turn front).2 ++ connectionDeinit conn) := by
  intro next
  cases kept : (settleConnection (connectionHandler g p.turn front)).1 with
  | none => simp [serveConnection, kept] at served
  | some conn' =>
    have record : { conn' with timerefreshed := p.turn.now } = conn := by
      simpa [serveConnection, kept] using served
    have same : connectionDeinit conn' = connectionDeinit conn := by
      rw [← record]
      rfl
    have finish : next = _ := finishConnection_of_kept g p queue front conn' kept
    rw [connQueueEnqueue_eq, record, same] at finish
    rw [← Ring.contents_put wf room, finish]
    cases p.enqueueLock with
    | false => exact Or.inr ⟨rfl, by simp, by simp⟩
    | true =>
      refine Or.inl ⟨rfl, ?_, ?_⟩
      · cases p.enqueueUnlock <;> simp [room]
      · cases p.enqueueUnlock <;> simp [room]

/-- Behind the dequeue, the connection is served, and may be put back, deinitialised, or
    both. -/
theorem finishConnection_outcome (g : Globals) (p : ProcessTurn) {queue : ConnectionQueue}
    (wf : queue.Wf) (front : Connection) :
    (∃ late, (finishConnection g p queue front).2 = (serveConnection g p.turn front).2 ++ late ∧
      (late = [] ∨ ∃ conn, late = connectionDeinit conn)) ∧
    ∀ conn ∈ (finishConnection g p queue front).1.contents,
      conn ∈ queue.contents ∨ (serveConnection g p.turn front).1 = some conn := by
  cases kept : (settleConnection (connectionHandler g p.turn front)).1 with
  | none =>
    rw [finishConnection_of_finished g p queue front kept]
    exact ⟨⟨[], (List.append_nil _).symm, Or.inl rfl⟩, fun conn mem => Or.inl mem⟩
  | some conn =>
    have served : (serveConnection g p.turn front).1 =
        some { conn with timerefreshed := p.turn.now } := by
      simp [serveConnection, kept]
    have added : ∀ conn' ∈ (connQueueEnqueue p.enqueueLock p.enqueueUnlock p.turn.now queue
        conn).2.contents, conn' ∈ queue.contents ∨
          (serveConnection g p.turn front).1 = some conn' := by
      intro conn' mem
      rw [served]
      exact (mem_connQueueEnqueue wf mem).imp_right fun same => congrArg some same.symm
    rw [finishConnection_of_kept g p queue front conn kept]
    split
    · exact ⟨⟨_, rfl, Or.inr ⟨conn, rfl⟩⟩, added⟩
    · exact ⟨⟨[], (List.append_nil _).symm, Or.inl rfl⟩, added⟩

/-- The outcomes of `process_connection`: it fails to dequeue, or serves the first
    connection, which it may put back, deinitialise, or both. -/
theorem processConnection_outcome (g : Globals) (p : ProcessTurn) {queue : ConnectionQueue}
    (wf : queue.Wf) :
    ((processConnection g p queue).2 = [] ∧
      ∀ conn ∈ (processConnection g p queue).1.contents, conn ∈ queue.contents) ∨
    ∃ front, queue.contents.head? = some front ∧ p.dequeueLock = true ∧ p.dequeueUnlock = true ∧
      (∃ late, (processConnection g p queue).2 = (serveConnection g p.turn front).2 ++ late ∧
        (late = [] ∨ ∃ conn, late = connectionDeinit conn)) ∧
      ∀ conn ∈ (processConnection g p queue).1.contents,
        conn ∈ queue.contents ∨ (serveConnection g p.turn front).1 = some conn := by
  by_cases taken : (connQueueDequeue p.dequeueLock p.dequeueUnlock queue Connection.zero).1 = 0
  · right
    obtain ⟨⟨lock, unlock, nonempty⟩, -⟩ := connQueueDequeue_of_taken taken
    have front := Ring.contents_take nonempty
    obtain ⟨calls, kept⟩ := finishConnection_outcome g p (wf.take nonempty) (queue.slot queue.tail)
    rw [processConnection_of_taken g p queue taken]
    refine ⟨queue.slot queue.tail, by rw [front]; rfl, lock, unlock, calls, ?_⟩
    intro conn mem
    rw [front]
    exact (kept conn mem).imp_left (List.mem_cons_of_mem _)
  · left
    rw [processConnection_of_failed g p queue taken]
    exact ⟨rfl, fun conn mem => mem_connQueueDequeue mem⟩

/-- What holds of the calls of a handler, and of the clean-up behind it, holds of the
    whole turn. -/
theorem forall_mem_serveConnection {P : Event → Prop} {g : Globals} {t : Turn} {conn : Connection}
    (returned : ∀ result, P (.handlerReturned result)) (freed : ∀ addr, P (.free addr))
    (deinit : ∀ conn, ∀ e ∈ connectionDeinit conn, P e)
    (handler : ∀ e ∈ (connectionHandler g t conn).events, P e) :
    ∀ e ∈ (serveConnection g t conn).2, P e := by
  intro e mem
  simp only [serveConnection, List.mem_append, List.mem_cons] at mem
  obtain handled | rfl | settled := mem
  · exact handler e handled
  · exact returned _
  · unfold settleConnection at settled
    generalize (connectionHandler g t conn).result = result at settled
    cases result with
    | «continue» => cases settled
    | reset =>
      rw [show e = _ from List.mem_singleton.mp settled]
      exact freed _
    | done | error => exact deinit _ e settled

/-! ## Sessions -/

/-- What a connection that is kept looks like after its turn. -/
theorem serveConnection_of_kept {g : Globals} {t : Turn} {conn conn' : Connection}
    (kept : (serveConnection g t conn).1 = some conn') :
    let handled := connectionHandler g t conn
    (handled.result = .continue ∧ conn' = { handled.conn with timerefreshed := t.now }) ∨
      (handled.result = .reset ∧
        conn' = { (resetConnection handled.conn).1 with timerefreshed := t.now }) := by
  unfold serveConnection at kept
  generalize connectionHandler g t conn = handled at kept ⊢
  obtain ⟨result, left, events⟩ := handled
  cases result with
  | «continue» => exact Or.inl ⟨rfl, (Option.some.inj kept).symm⟩
  | reset => exact Or.inr ⟨rfl, (Option.some.inj kept).symm⟩
  | done | error => cases kept

/-- A connection that is not kept is one its handler is done with. -/
theorem serveConnection_of_finished {g : Globals} {t : Turn} {conn : Connection}
    (finished : (serveConnection g t conn).1 = none) :
    (connectionHandler g t conn).result = .done ∨ (connectionHandler g t conn).result = .error := by
  unfold serveConnection at finished
  generalize connectionHandler g t conn = handled at finished ⊢
  obtain ⟨result, left, events⟩ := handled
  cases result with
  | «continue» | reset => cases finished
  | done => exact Or.inl rfl
  | error => exact Or.inr rfl

abbrev MasterHistory := List (Entry ConnectionQueue MasterInput (List Event))
abbrev SessionHistory := List (Entry (Option Connection) Turn (List Event))

/-- A connection that is gone makes no further calls. -/
theorem run_session_none (g : Globals) (turns : List Turn) :
    (session g).run none turns = (List.replicate turns.length [], none) := by
  induction turns with
  | nil => rfl
  | cons t turns ih =>
    rw [Machine.run, show ((session g).step none t) = (none, []) from rfl, ih]
    rfl

/-- The steps of a master thread whose mutex calls all succeed. -/
def mutexOk : MasterHistory → ConnectionQueue → MasterInput → Prop :=
  fun _ _ input => input.MutexOk

instance (h : MasterHistory) (queue : ConnectionQueue) (input : MasterInput) :
    Decidable (mutexOk h queue input) := inferInstanceAs (Decidable input.MutexOk)

/-- `h` is a history of one connection, from its acceptance on, that ends in `conn`. -/
def OwnSession (srv : Server) (conn : Connection) (h : SessionHistory) : Prop :=
  ∃ a type, (session srv.toGlobals).Reaches
    (· = some (acceptedConnection srv.toGlobals a type (srv.strategy type)))
    Machine.anyStep h (some conn)

/-- **Invariant rule for the waiting records.**  What holds of every new record and is
    kept by every turn holds of all that wait, whatever the mutex calls do. -/
theorem queued_invariant {srv : Server}
    {allowed : MasterHistory → ConnectionQueue → MasterInput → Prop} (inv : Connection → Prop)
    (accepts : ∀ h queue type a, allowed h queue (.accept type a) → srv.active type = true →
      inv (acceptedConnection srv.toGlobals a type (srv.strategy type)))
    (serves : ∀ h queue p conn conn', allowed h queue (.process p) →
      queue.contents.head? = some conn → inv conn →
      (serveConnection srv.toGlobals p.turn conn).1 = some conn' → inv conn')
    {h : MasterHistory} {queue : ConnectionQueue}
    (reaches : (master srv).Reaches (· = connQueueInit) allowed h queue) :
    queue.Wf ∧ ∀ conn ∈ queue.contents, inv conn := by
  apply Machine.Reaches.invariant (fun _ queue => queue.Wf ∧ ∀ conn ∈ queue.contents, inv conn) _ _
    reaches
  · rintro queue rfl
    exact ⟨Ring.wf_cleared _, by simp [connQueueInit]⟩
  · intro h queue input known ok
    obtain ⟨wf, held⟩ := known
    refine ⟨wf_masterStep srv wf input, ?_⟩
    change ∀ conn ∈ (masterStep srv queue input).1.contents, inv conn
    intro conn mem
    cases input with
    | accept type a =>
      unfold masterStep at mem
      by_cases up : srv.active type = true
      · simp only [up, if_true] at mem
        obtain old | rfl := mem_handleConnection wf mem
        · exact held conn old
        · exact accepts h queue type a ok up
      · simp only [up] at mem
        exact held conn mem
    | process p =>
      obtain ⟨-, kept⟩ | ⟨front, first, -, -, -, kept⟩ :=
        processConnection_outcome srv.toGlobals p wf
      · exact held conn (kept conn mem)
      · obtain old | served := kept conn mem
        · exact held conn old
        · exact serves h queue p front conn ok first (held front (List.mem_of_mem_head? first)) served

/-- Every waiting connection is a state its own session reaches. -/
theorem queued_session {srv : Server} {h : MasterHistory} {queue : ConnectionQueue}
    (reaches : (master srv).Reaches (· = connQueueInit) mutexOk h queue) :
    queue.Wf ∧ ∀ conn ∈ queue.contents, ∃ own, OwnSession srv conn own := by
  refine queued_invariant (fun conn => ∃ own, OwnSession srv conn own) ?_ ?_ reaches
  · intro _ _ type a _ _
    exact ⟨[], a, type, .start rfl⟩
  · intro _ _ p conn conn' _ _ lived kept
    obtain ⟨own, a, type, reached⟩ := lived
    -- the session of the connection takes the turn the master thread gave it
    have next := reached.step (i := p.turn) trivial
    have here : ((session srv.toGlobals).step (some conn) p.turn).1 = some conn' := kept
    rw [here] at next
    exact ⟨_, a, type, next⟩

/-- Every `process_connection` that finds a connection takes the next step of that
    connection's session. -/
theorem processed_session {srv : Server} {h : MasterHistory} {queue : ConnectionQueue}
    (reaches : (master srv).Reaches (· = connQueueInit) mutexOk h queue) (p : ProcessTurn)
    (ok : p.MutexOk) (nonempty : queue.contents ≠ []) :
    ∃ conn own, OwnSession srv conn own ∧ queue.contents.head? = some conn ∧
      ((master srv).step queue (.process p)).2 =
        ((session srv.toGlobals).step (some conn) p.turn).2 := by
  obtain ⟨wf, sessions⟩ := queued_session reaches
  have moves := processConnection_step srv p wf ok
  generalize serves : processConnection srv.toGlobals p queue = next at moves
  obtain ⟨queue', events⟩ := next
  have output : ((master srv).step queue (.process p)).2 = events := congrArg Prod.snd serves
  rw [output]
  dsimp only at moves
  generalize queue'.contents = after at moves
  cases moves with
  | idle _ empty => exact absurd empty nonempty
  | served _ conn rest front =>
    obtain ⟨own, reached⟩ := sessions conn (by simp [front])
    exact ⟨conn, own, reached, by simp [front], rfl⟩

end Femail
