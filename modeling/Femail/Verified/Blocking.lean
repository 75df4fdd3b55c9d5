import Femail.Server.Host
import Femail.Verified.Calls

/-! # A silent client and the others

Nothing in the program sets `O_NONBLOCK` on a socket that `accept` has returned, so every
socket the handlers see is in blocking mode (`blocking_thread`), and a turn that calls
`SSL_accept` or reads while the client is silent waits there, with all other clients in
the queue.  The thread never waits exactly if no turn makes such a call.
-/

namespace Femail

open Foundation

abbrev ThreadHistory := List (Entry Thread ThreadInput (List Event))

/-! ## Modes -/

/-- The descriptors in `used`, and those of all SSL objects, are in blocking mode. -/
structure Descriptors.Off (descriptors : Descriptors) (used : Fd → Prop) : Prop where
  sockets : ∀ fd, used fd → descriptors.nonblock fd = false
  objects : ∀ ssl, descriptors.nonblock (descriptors.bound ssl) = false

/-- A call that opens no listener and binds SSL objects to `used` descriptors only. -/
def Event.Plain (used : Fd → Prop) : Event → Prop
  | .socket _ => False
  | .sslSetFd _ fd => used fd
  | _ => True

section

variable {descriptors : Descriptors} {used used' : Fd → Prop}

theorem Descriptors.Off.mono (off : descriptors.Off used) (fewer : ∀ fd, used' fd → used fd) :
    descriptors.Off used' :=
  ⟨fun fd here => off.sockets fd (fewer fd here), off.objects⟩

theorem Descriptors.Off.accept (off : descriptors.Off used) (fd : Fd) :
    (descriptors.after (.accept fd)).Off (fun fd' => used fd' ∨ fd' = fd) := by
  have clear : ∀ fd', descriptors.nonblock fd' = false ∨ fd' = fd →
      (descriptors.after (.accept fd)).nonblock fd' = false := by
    intro fd' here
    by_cases same : fd' = fd
    · subst same
      exact Function.update_self ..
    · rw [show (descriptors.after (.accept fd)).nonblock fd' = descriptors.nonblock fd' from
        Function.update_of_ne same ..]
      exact here.resolve_right same
  exact ⟨fun fd' here => clear fd' (here.imp_left (off.sockets fd')),
    fun ssl => clear _ (Or.inl (off.objects ssl))⟩

theorem Descriptors.Off.after (off : descriptors.Off used) {e : Event} (plain : e.Plain used) :
    (descriptors.after e).Off used := by
  cases e with
  | socket fd => cases plain
  | accept fd => exact (off.accept fd).mono fun fd' here => Or.inl here
  | sslSetFd ssl fd =>
    cases ssl with
    | none => exact off
    | some ssl =>
      refine ⟨off.sockets, fun ssl' => ?_⟩
      change descriptors.nonblock (Function.update descriptors.bound ssl fd ssl') = false
      by_cases same : ssl' = ssl
      · subst same
        rw [Function.update_self]
        exact off.sockets fd plain
      · rw [Function.update_of_ne same]
        exact off.objects ssl'
  | _ => exact off

theorem Descriptors.Off.afterAll (off : descriptors.Off used) {events : List Event}
    (plain : ∀ e ∈ events, e.Plain used) : (events.foldl Descriptors.after descriptors).Off used := by
  induction events generalizing descriptors with
  | nil => exact off
  | cons e events ih =>
    obtain ⟨now, later⟩ := List.forall_mem_cons.mp plain
    exact ih (off.after now) later

theorem plain_connectionDeinit (conn : Connection) : ∀ e ∈ connectionDeinit conn, e.Plain used := by
  intro e mem
  simp only [connectionDeinit, List.mem_cons, List.not_mem_nil, or_false] at mem
  rcases mem with rfl | rfl | rfl <;> exact trivial

theorem plain_serveConnection (g : Globals) (t : Turn) {conn : Connection}
    (own : used conn.clientsocket) : ∀ e ∈ (serveConnection g t conn).2, e.Plain used := by
  have within : ∀ e : Event, e.Within conn → e.Plain used := by
    intro e within
    cases e with
    | socket | sslSetFd => cases within
    | _ => exact trivial
  apply forall_mem_serveConnection (fun _ => trivial) (fun _ => trivial) plain_connectionDeinit
  intro e mem
  obtain keeps | upgrades := (footprint_connectionHandler g t conn).tls
  · exact within e (keeps.within e mem)
  · obtain ⟨before, calls, -, early⟩ := upgrades.calls
    rw [calls] at mem
    simp only [List.mem_append, List.mem_cons, List.not_mem_nil, or_false] at mem
    obtain early' | rfl | rfl := mem
    · exact within e (early e early')
    · exact trivial
    · exact own

end

/-! ## Every socket is in blocking mode -/

/-- The connections of the thread. -/
def Thread.held (thread : Thread) : List Connection :=
  thread.inside.toList ++ thread.queue.contents

/-- Before the loop: nothing is queued, and there is no SSL object on a listener. -/
structure Thread.Starts (thread : Thread) : Prop where
  queue : thread.queue = connQueueInit
  inside : thread.inside = none
  objects : ∀ ssl, thread.descriptors.nonblock (thread.descriptors.bound ssl) = false

/-- The connections are live and their sockets in blocking mode. -/
structure Blocks (descriptors : Descriptors) (held : List Connection) : Prop where
  live : ∀ conn ∈ held, conn.live = true
  off : descriptors.Off fun fd => ∃ conn ∈ held, conn.clientsocket = fd

structure Blocking (thread : Thread) : Prop where
  wf : thread.queue.Wf
  blocks : Blocks thread.descriptors thread.held

theorem Blocks.mono {descriptors : Descriptors} {held held' : List Connection}
    (blocks : Blocks descriptors held) (fewer : ∀ conn ∈ held', conn ∈ held) :
    Blocks descriptors held' := by
  refine ⟨fun conn mem => blocks.live conn (fewer conn mem), blocks.off.mono ?_⟩
  rintro fd ⟨conn, mem, same⟩
  exact ⟨conn, fewer conn mem, same⟩

section

variable {srv : Server} {thread : Thread}

theorem blocking_finish {p : ProcessTurn} {queue : ConnectionQueue} {conn : Connection}
    (wf : queue.Wf) (blocks : Blocks thread.descriptors (conn :: queue.contents)) :
    Blocking (thread.finish srv p queue conn).1 := by
  obtain ⟨⟨late, calls, deinit⟩, kept⟩ := finishConnection_outcome srv.toGlobals p wf conn
  have own : ∃ conn' ∈ conn :: queue.contents, conn'.clientsocket = conn.clientsocket :=
    ⟨conn, List.mem_cons_self, rfl⟩
  have after : ((finishConnection srv.toGlobals p queue conn).2.foldl Descriptors.after
      thread.descriptors).Off fun fd => ∃ conn' ∈ conn :: queue.contents, conn'.clientsocket = fd := by
    apply blocks.off.afterAll
    rw [calls]
    intro e mem
    obtain served | settled := List.mem_append.mp mem
    · exact plain_serveConnection srv.toGlobals p.turn own e served
    · obtain rfl | ⟨conn', rfl⟩ := deinit
      · cases settled
      · exact plain_connectionDeinit conn' e settled
  -- a connection that is put back is as live as before, on the same socket
  have known : ∀ conn' ∈ (finishConnection srv.toGlobals p queue conn).1.contents,
      conn'.live = true ∧ ∃ conn'' ∈ conn :: queue.contents,
        conn''.clientsocket = conn'.clientsocket := by
    intro conn' mem
    obtain old | served := kept conn' mem
    · exact ⟨blocks.live conn' (List.mem_cons_of_mem _ old), conn', List.mem_cons_of_mem _ old, rfl⟩
    · obtain ⟨live, -, socket, -⟩ :=
        serveConnection_keeps (blocks.live conn List.mem_cons_self) served
      exact ⟨live, conn, List.mem_cons_self, socket.symm⟩
  refine ⟨wf_finishConnection srv.toGlobals p wf conn, fun conn' mem => (known conn' mem).1, ?_⟩
  refine after.mono ?_
  rintro fd ⟨conn', mem, rfl⟩
  exact (known conn' mem).2

theorem blocking_serve {p : ProcessTurn} {arrived : Arrived} {queue : ConnectionQueue}
    {conn : Connection} (wf : queue.Wf)
    (blocks : Blocks thread.descriptors (conn :: queue.contents)) :
    Blocking (thread.serve srv p arrived queue conn).1 := by
  unfold Thread.serve
  dsimp only
  split
  · exact blocking_finish wf blocks
  · split
    · exact blocking_finish wf blocks
    · exact ⟨wf, blocks⟩

/-- What `accept` returns is in blocking mode, and so is the SSL object made for it. -/
theorem off_handleConnection {used : Fd → Prop} (off : thread.descriptors.Off used) (a : AcceptTurn)
    (type : ConnectionType) (strat : SslStrategy) (queue : ConnectionQueue) :
    ((handleConnection srv.toGlobals a type strat queue).2.2.foldl Descriptors.after
      thread.descriptors).Off fun fd => used fd ∨ a.ret ≠ -1 ∧ fd = a.ret := by
  rw [events_handleConnection]
  by_cases failed : a.ret = -1
  · rw [if_pos failed]
    exact off.mono fun fd here => here.resolve_right fun new => new.1 failed
  · rw [if_neg failed, List.cons_append, List.foldl_cons]
    refine ((off.accept a.ret).afterAll ?_).mono fun fd here => here.imp_right And.right
    intro e mem
    obtain new | late := List.mem_append.mp mem
    · rw [events_newConnection] at new
      split at new
      · simp only [List.mem_cons, List.not_mem_nil, or_false] at new
        obtain rfl | rfl := new
        · exact trivial
        · exact Or.inr rfl
      · cases new
    · split at late
      · cases late
      · exact plain_connectionDeinit _ e late

theorem blocking_accept (blocking : Blocking thread) (type : ConnectionType) (a : AcceptTurn) :
    Blocking (threadStep srv thread (.accept type a)).1 := by
  obtain ⟨wf, blocks⟩ := blocking
  unfold threadStep
  cases inside : thread.inside with
  | some conn => exact ⟨wf, blocks⟩
  | none =>
    rw [Thread.held, inside] at blocks
    refine ⟨wf_masterStep srv wf _, ?_⟩
    change Blocks ((masterStep srv thread.queue (.accept type a)).2.foldl Descriptors.after
      thread.descriptors) (masterStep srv thread.queue (.accept type a)).1.contents
    unfold masterStep
    by_cases up : srv.active type = true
    · simp only [up, if_true]
      have known : ∀ conn ∈ (handleConnection srv.toGlobals a type (srv.strategy type)
          thread.queue).2.1.contents, conn ∈ thread.queue.contents ∨
            a.ret ≠ -1 ∧ conn = acceptedConnection srv.toGlobals a type (srv.strategy type) := by
        intro conn mem
        by_cases failed : a.ret = -1
        · rw [queue_handleConnection, if_pos failed] at mem
          exact Or.inl mem
        · exact (mem_handleConnection wf mem).imp_right fun new => ⟨failed, new⟩
      constructor
      · intro conn mem
        obtain old | ⟨-, rfl⟩ := known conn mem
        · exact blocks.live conn old
        · exact live_acceptedConnection ..
      · refine (off_handleConnection blocks.off a type (srv.strategy type) thread.queue).mono ?_
        rintro fd ⟨conn, mem, rfl⟩
        obtain old | ⟨accepted, rfl⟩ := known conn mem
        · exact Or.inl ⟨conn, old, rfl⟩
        · exact Or.inr ⟨accepted, clientsocket_acceptedConnection ..⟩
    · simp only [up]
      exact blocks

theorem blocking_step (blocking : Blocking thread) (input : ThreadInput) :
    Blocking (threadStep srv thread input).1 := by
  cases input with
  | accept type a => exact blocking_accept blocking type a
  | process p arrived =>
    obtain ⟨wf, blocks⟩ := blocking
    unfold threadStep
    cases inside : thread.inside with
    | some conn =>
      rw [Thread.held, inside] at blocks
      exact blocking_serve wf blocks
    | none =>
      rw [Thread.held, inside] at blocks
      dsimp only
      split
      · refine ⟨wf_connQueueDequeue _ _ wf _, ?_⟩
        exact blocks.mono fun conn mem => mem_connQueueDequeue mem
      · rename_i taken
        obtain ⟨⟨-, -, nonempty⟩, dequeue⟩ := connQueueDequeue_of_taken (not_not.mp taken)
        rw [dequeue]
        refine blocking_serve (wf.take nonempty) ?_
        rw [← Ring.contents_take nonempty]
        exact blocks

end

theorem blocking_thread {srv : Server}
    {allowed : ThreadHistory → Thread → ThreadInput → Prop} {h : ThreadHistory} {s : Thread}
    (reaches : (thread srv).Reaches Thread.Starts allowed h s) : Blocking s := by
  apply Machine.Reaches.invariant (fun _ s => Blocking s) _ _ reaches
  · intro s starts
    have held : s.held = [] := by
      rw [Thread.held, starts.inside, starts.queue]
      rfl
    refine ⟨by rw [starts.queue]; exact Ring.wf_cleared _, ?_⟩
    rw [held]
    exact ⟨by simp, by simp, starts.objects⟩
  · intro h s input blocking allowed
    exact blocking_step blocking input

/-! ## When a turn waits -/

/-- The turn makes a call for which not enough has come. -/
def Connection.Awaits (arrived : Arrived) (t : Turn) (conn : Connection) : Prop :=
  conn.Negotiates ∧ conn.sslconn ≠ none ∧ arrived.accept = false ∨
    conn.Receives t ∧ (conn.type = .https → conn.sslconn ≠ none) ∧ arrived.read = false

instance (arrived : Arrived) (t : Turn) (conn : Connection) : Decidable (conn.Awaits arrived t) :=
  inferInstanceAs (Decidable (_ ∨ _))

section

variable {descriptors : Descriptors} {arrived : Arrived} {t : Turn} {conn : Connection}

theorem waitsOn_receiveEvent :
    (receiveEvent t conn).waitsOn descriptors arrived = none ↔
      (conn.type = .https ∧ conn.sslconn = none) ∨ arrived.read = true := by
  unfold receiveEvent smtpReceiveMsg
  cases conn.type <;> cases conn.sslconn <;> simp [Event.waitsOn]

/-- The call that waits is the negotiation or the read of the turn. -/
theorem awaits_of_waitsOn (g : Globals) {e : Event} {fd : Fd}
    (mem : e ∈ (connectionHandler g t conn).events) (waits : e.waitsOn descriptors arrived = some fd) :
    conn.Awaits arrived t ∧ (fd = conn.clientsocket ∨ ∃ ssl, fd = descriptors.bound ssl) := by
  obtain ⟨accepts, reads⟩ := eq_of_mem_calls g t conn mem
  have reading : e.call? = some .read → conn.Awaits arrived t := by
    intro call
    obtain ⟨receives, rfl⟩ := reads call
    have awaits : ¬ (receiveEvent t conn).waitsOn descriptors arrived = none := by
      rw [waits]
      intro none
      cases none
    rw [waitsOn_receiveEvent, not_or, not_and, Bool.not_eq_true] at awaits
    exact Or.inr ⟨receives, awaits⟩
  cases e with
  | sslAccept ssl ret =>
    obtain ⟨negotiates, same⟩ := accepts rfl
    cases same
    cases ssl : conn.sslconn with
    | none =>
      rw [ssl] at waits
      cases waits
    | some object =>
      rw [ssl] at waits
      cases come : arrived.accept with
      | true => simp [Event.waitsOn, come] at waits
      | false =>
        refine ⟨Or.inl ⟨negotiates, by simp [ssl], come⟩, Or.inr ⟨object, ?_⟩⟩
        simpa [Event.waitsOn, come] using waits.symm
  | read fd' got =>
    refine ⟨reading rfl, Or.inl ?_⟩
    obtain ⟨-, same⟩ := reads rfl
    have socket : fd' = conn.clientsocket := by
      unfold receiveEvent smtpReceiveMsg at same
      generalize conn.type = type, conn.sslconn = ssl at same
      cases type <;> cases ssl <;> cases same <;> rfl
    cases come : arrived.read with
    | true => simp [Event.waitsOn, come] at waits
    | false =>
      rw [← socket]
      simpa [Event.waitsOn, come] using waits.symm
  | sslRead ssl got =>
    refine ⟨reading rfl, Or.inr ?_⟩
    cases ssl with
    | none => cases waits
    | some object =>
      cases come : arrived.read with
      | true => simp [Event.waitsOn, come] at waits
      | false => exact ⟨object, by simpa [Event.waitsOn, come] using waits.symm⟩
  | _ => cases waits

theorem findSome_waitsOn_iff (g : Globals) :
    (connectionHandler g t conn).events.findSome? (Event.waitsOn descriptors arrived) = none ↔
      ¬ conn.Awaits arrived t := by
  rw [List.findSome?_eq_none_iff]
  constructor
  · rintro quiet (⟨negotiates, object, nothing⟩ | ⟨receives, object, nothing⟩)
    · have accept := quiet _ (sslAccept_mem g t conn negotiates)
      cases ssl : conn.sslconn with
      | none => exact object ssl
      | some => simp [Event.waitsOn, ssl, nothing] at accept
    · obtain ⟨https, none'⟩ | come :=
        waitsOn_receiveEvent.mp (quiet _ (receiveEvent_mem g t conn receives))
      · exact object https none'
      · rw [nothing] at come
        cases come
  · intro calm e mem
    cases waits : e.waitsOn descriptors arrived with
    | none => rfl
    | some fd => exact absurd (awaits_of_waitsOn g mem waits).1 calm

end

section

variable {srv : Server} {thread : Thread} {p : ProcessTurn} {arrived : Arrived}

theorem serve_of_not_awaits {conn : Connection} (queue : ConnectionQueue)
    (calm : ¬ conn.Awaits arrived p.turn) :
    thread.serve srv p arrived queue conn = thread.finish srv p queue conn := by
  unfold Thread.serve
  dsimp only
  rw [(findSome_waitsOn_iff srv.toGlobals).mpr calm]

/-- In blocking mode the call waits, and the connection is out of the queue. -/
theorem serve_of_awaits {queue : ConnectionQueue} {conn : Connection}
    (blocks : Blocks thread.descriptors (conn :: queue.contents))
    (awaits : conn.Awaits arrived p.turn) :
    thread.serve srv p arrived queue conn = ({ thread with queue := queue, inside := some conn }, []) := by
  unfold Thread.serve
  dsimp only
  cases found : (connectionHandler srv.toGlobals p.turn conn).events.findSome?
      (Event.waitsOn thread.descriptors arrived) with
  | none => exact absurd awaits ((findSome_waitsOn_iff srv.toGlobals).mp found)
  | some fd =>
    obtain ⟨e, mem, waits⟩ := List.exists_of_findSome?_eq_some found
    have off : thread.descriptors.nonblock fd = false := by
      obtain ⟨-, rfl | ⟨ssl, rfl⟩⟩ := awaits_of_waitsOn srv.toGlobals mem waits
      · exact blocks.off.sockets _ ⟨conn, List.mem_cons_self, rfl⟩
      · exact blocks.off.objects ssl
    dsimp only
    rw [off]
    rfl

/-- A step of the thread that gives the first connection its turn. -/
theorem threadStep_process (running : thread.inside = none) {conn : Connection}
    {rest : List Connection} (front : thread.queue.contents = conn :: rest)
    (lock : p.dequeueLock = true) (unlock : p.dequeueUnlock = true) :
    threadStep srv thread (.process p arrived) = thread.serve srv p arrived thread.queue.take conn ∧
      thread.queue.take.contents = rest := by
  have nonempty := Ring.count_ne_zero front
  have split := Ring.contents_take nonempty
  rw [front] at split
  obtain ⟨same, others⟩ := List.cons.inj split
  have dequeue : connQueueDequeue p.dequeueLock p.dequeueUnlock thread.queue Connection.zero =
      (0, thread.queue.take, conn) := by
    rw [connQueueDequeue_eq, if_pos ⟨lock, nonempty⟩, unlock, ← same]
    rfl
  refine ⟨?_, others.symm⟩
  unfold threadStep
  rw [running]
  dsimp only
  rw [dequeue]
  rfl

/-- **When the thread waits.**  It ends a turn inside a call exactly if the turn makes a
    call for which not enough has come. -/
theorem inside_process_iff (blocking : Blocking thread) (running : thread.inside = none)
    {conn : Connection} {rest : List Connection} (front : thread.queue.contents = conn :: rest)
    (lock : p.dequeueLock = true) (unlock : p.dequeueUnlock = true) :
    (threadStep srv thread (.process p arrived)).1.inside = none ↔ ¬ conn.Awaits arrived p.turn := by
  obtain ⟨step, others⟩ := threadStep_process running front lock unlock
  have blocks := blocking.blocks
  rw [Thread.held, running, front, ← others] at blocks
  rw [step]
  by_cases awaits : conn.Awaits arrived p.turn
  · rw [serve_of_awaits blocks awaits]
    simp [awaits]
  · rw [serve_of_not_awaits _ awaits]
    simp [awaits, Thread.finish]

end

/-! ## Runs -/

/-- Enough has come for every call of the step to return. -/
def heardFirst : ThreadHistory → Thread → ThreadInput → Prop
  | _, _, .accept _ _ => True
  | _, s, .process p arrived =>
    p.dequeueLock = true → p.dequeueUnlock = true → ∀ conn ∈ s.queue.contents.head?,
      ¬ conn.Awaits arrived p.turn

instance : ∀ h s input, Decidable (heardFirst h s input)
  | _, _, .accept _ _ => inferInstanceAs (Decidable True)
  | _, s, .process _ _ =>
    inferInstanceAs (Decidable (_ → _ → ∀ conn ∈ s.queue.contents.head?, _))

/-- The step without what Linux adds. -/
def ThreadInput.master : ThreadInput → MasterInput
  | .accept type a => .accept type a
  | .process p _ => .process p

/-- Where nothing waits, the step is that of `master`. -/
theorem threadStep_of_heard {srv : Server} {h : ThreadHistory} {s : Thread} (running : s.inside = none)
    {input : ThreadInput} (heard : heardFirst h s input) :
    threadStep srv s input =
      let (queue, events) := masterStep srv s.queue input.master
      (⟨queue, events.foldl Descriptors.after s.descriptors, none⟩, events) := by
  cases input with
  | accept type a =>
    unfold threadStep
    rw [running]
    rfl
  | process p arrived =>
    have same : masterStep srv s.queue (ThreadInput.process p arrived).master =
        processConnection srv.toGlobals p s.queue := rfl
    rw [same]
    by_cases taken : (connQueueDequeue p.dequeueLock p.dequeueUnlock s.queue Connection.zero).1 = 0
    · obtain ⟨⟨lock, unlock, nonempty⟩, -⟩ := connQueueDequeue_of_taken taken
      have front := Ring.contents_take nonempty
      have calm := heard lock unlock (s.queue.slot s.queue.tail) (by rw [front]; rfl)
      rw [(threadStep_process running front lock unlock).1, serve_of_not_awaits _ calm,
        processConnection_of_taken srv.toGlobals p s.queue taken]
      rfl
    · rw [processConnection_of_failed srv.toGlobals p s.queue taken]
      unfold threadStep
      rw [running]
      dsimp only
      rw [if_pos taken]
      rfl

/-- In a run in which enough has come for each call, the thread is never inside one. -/
theorem running_thread {srv : Server} {h : ThreadHistory} {s : Thread}
    (reaches : (thread srv).Reaches Thread.Starts heardFirst h s) : s.inside = none := by
  induction reaches with
  | start starts => exact starts.inside
  | @step h s input reaches heard running =>
    have step : (thread srv).step s input = _ := threadStep_of_heard running heard
    rw [step]

/-- Such a run is a run of `master`. -/
theorem thread_refines_master {srv : Server} {h : ThreadHistory} {s : Thread}
    (reaches : (thread srv).Reaches Thread.Starts heardFirst h s) :
    (master srv).Reaches (· = connQueueInit) Machine.anyStep
      (h.map fun e => ⟨e.before.queue, e.input.master, e.output⟩) s.queue := by
  refine reaches.refines Thread.queue ThreadInput.master (fun s starts => starts.queue) ?_
  intro h s input reaches heard
  have step : (thread srv).step s input = _ := threadStep_of_heard (running_thread reaches) heard
  rw [step]
  rfl

/-! ## Silent clients -/

/-- The call has failed for want of data. -/
def Event.WouldBlock : Event → Prop
  | .read _ got => got = .fail (some ewouldblock)
  | .sslRead _ got => got = .fail (some ewouldblock)
  | .sslAccept ssl ret => ssl ≠ none ∧ ret ≤ 0
  | _ => True

/-- The turn of `conn`, in front of `rest`, has not kept the thread: its calls have failed
    for want of data, and the connection is back in the queue. -/
structure Yields (conn : Connection) (rest : List Connection) (next : Thread × List Event) : Prop where
  returned : next.1.inside = none
  wouldBlock : ∀ e ∈ next.2, e.WouldBlock
  requeued : ∃ conn', conn'.clientsocket = conn.clientsocket ∧
    next.1.queue.contents = rest ++ [conn']
  kept : .close conn.clientsocket ∉ next.2

section

variable {srv : Server} {thread : Thread} {p : ProcessTurn} {conn : Connection}

/-- With nothing sent, only a connection that is still to be greeted reads nothing. -/
theorem awaits_nothing (t : Turn) (live : conn.live = true) (service : conn.type = .smtp ∨ conn.type = .http)
    (calm : ¬ conn.Awaits .nothing t) :
    conn.type = .smtp ∧
      (conn.state = .mailOpened ∨ conn.state = .mailExpectTlsNeg ∧ conn.sslconn = none) := by
  unfold Connection.Awaits at calm
  obtain ⟨negotiation, reading⟩ := not_or.mp calm
  have idle : ¬ conn.Receives t := by
    intro receives
    refine reading ⟨receives, ?_, rfl⟩
    intro https
    rw [https] at service
    rcases service with same | same <;> cases same
  obtain smtp | http := service
  · refine ⟨smtp, or_iff_not_imp_left.mpr fun greeted => ?_⟩
    have negotiating : conn.state = .mailExpectTlsNeg := by
      by_contra other
      exact idle ⟨live, Or.inr (Or.inr ⟨smtp, greeted, other⟩)⟩
    refine ⟨negotiating, ?_⟩
    by_contra object
    exact negotiation ⟨⟨live, Or.inr (Or.inr ⟨smtp, negotiating⟩)⟩, object, rfl⟩
  · exact absurd ⟨live, Or.inl http⟩ idle

/-- The turn that greets makes no call that waits, and keeps the connection. -/
theorem serveConnection_opened (g : Globals) (t : Turn) (live : conn.live = true)
    (smtp : conn.type = .smtp) (opened : conn.state = .mailOpened) :
    serveConnection g t conn =
      (some { conn with state := .mailExpectAny, timerefreshed := t.now },
        smtpSendMsg g t conn .acceptConnection ++ [.handlerReturned .continue]) := by
  have handled : connectionHandler g t conn = ⟨.continue, { conn with state := .mailExpectAny },
      smtpSendMsg g t conn .acceptConnection⟩ := by
    simp [connectionHandler, smtp, smtpHandler, live, opened]
  unfold serveConnection
  rw [handled]
  rfl

theorem wouldBlock_smtpSendMsg (g : Globals) (t : Turn) (reply : Reply) :
    ∀ e ∈ smtpSendMsg g t conn reply, e.WouldBlock ∧ ∀ fd, e ≠ .close fd := by
  intro e mem
  rw [smtpSendMsg_eq] at mem
  split at mem
  · rw [List.mem_singleton.mp mem]
    exact ⟨trivial, fun fd same => by cases same⟩
  · rw [List.mem_singleton.mp mem]
    exact ⟨trivial, fun fd same => by cases same⟩

/-- The greeting yields if the connection gets back into the queue. -/
theorem yields_opened_iff {queue : ConnectionQueue} (wf : queue.Wf)
    (room : queue.count ≠ connectionQueueCapacity) (live : conn.live = true)
    (smtp : conn.type = .smtp) (opened : conn.state = .mailOpened) :
    Yields conn queue.contents (thread.finish srv p queue conn) ↔
      p.enqueueLock = true ∧ p.enqueueUnlock = true := by
  have serve := serveConnection_opened srv.toGlobals p.turn live smtp opened
  have calm : ∀ e ∈ (serveConnection srv.toGlobals p.turn conn).2,
      e.WouldBlock ∧ ∀ fd, e ≠ .close fd := by
    rw [serve]
    intro e mem
    obtain sent | returned := List.mem_append.mp mem
    · exact wouldBlock_smtpSendMsg _ _ _ e sent
    · rw [List.mem_singleton.mp returned]
      exact ⟨trivial, fun fd same => by cases same⟩
  have contents : (thread.finish srv p queue conn).1.queue =
      (finishConnection srv.toGlobals p queue conn).1 := rfl
  have events : (thread.finish srv p queue conn).2 =
      (finishConnection srv.toGlobals p queue conn).2 := rfl
  obtain ⟨lock, queued, calls⟩ | ⟨lock, dropped, -⟩ :=
    finishConnection_of_served wf room (congrArg Prod.fst serve)
  · rw [← contents] at queued
    rw [← events] at calls
    cases unlock : p.enqueueUnlock with
    | false =>
      -- the connection is queued and closed
      refine iff_of_false (fun yields => yields.kept ?_) (by simp)
      rw [calls, unlock]
      simp [connectionDeinit]
    | true =>
      rw [unlock, if_pos rfl, List.append_nil] at calls
      refine iff_of_true ⟨rfl, ?_, ⟨_, by rfl, queued⟩, ?_⟩ ⟨lock, rfl⟩
      · rw [calls]
        exact fun e mem => (calm e mem).1
      · rw [calls]
        exact fun mem => (calm _ mem).2 _ rfl
  · rw [← contents] at dropped
    refine iff_of_false ?_ (by simp [lock])
    intro yields
    obtain ⟨conn', -, queued⟩ := yields.requeued
    rw [dropped] at queued
    simpa using congrArg List.length queued

/-- One turn with a silent client. -/
theorem yields_process_iff (blocking : Blocking thread) (running : thread.inside = none)
    {rest : List Connection} (front : thread.queue.contents = conn :: rest)
    (lock : p.dequeueLock = true) (unlock : p.dequeueUnlock = true)
    (service : conn.type = .smtp ∨ conn.type = .http) :
    Yields conn rest (threadStep srv thread (.process p .nothing)) ↔
      (conn.type = .smtp ∧ conn.state = .mailOpened) ∧
        p.enqueueLock = true ∧ p.enqueueUnlock = true := by
  obtain ⟨step, others⟩ := @threadStep_process srv thread p .nothing running conn rest front lock unlock
  have live : conn.live = true := by
    apply blocking.blocks.live
    rw [Thread.held, running, front]
    exact List.mem_cons_self
  have nonempty := Ring.count_ne_zero front
  have greets : conn.type = .smtp → conn.state = .mailOpened →
      (Yields conn rest (threadStep srv thread (.process p .nothing)) ↔
        p.enqueueLock = true ∧ p.enqueueUnlock = true) := by
    intro smtp opened
    have calm : ¬ conn.Awaits .nothing p.turn := by
      simp [Connection.Awaits, Connection.Negotiates, Connection.Receives, smtp, opened]
    rw [step, serve_of_not_awaits _ calm, ← others]
    exact yields_opened_iff (blocking.wf.take nonempty) (blocking.wf.take_count_ne nonempty) live smtp
      opened
  constructor
  · intro yields
    have calm := (inside_process_iff blocking running front lock unlock).mp yields.returned
    obtain ⟨smtp, opened | ⟨negotiating, none'⟩⟩ := awaits_nothing p.turn live service calm
    · exact ⟨⟨smtp, opened⟩, (greets smtp opened).mp yields⟩
    · -- `SSL_accept` on a null object is no call that waits for the client
      have calls : .sslAccept none p.turn.sslAccept ∈ (threadStep srv thread (.process p .nothing)).2 := by
        obtain ⟨⟨late, events, -⟩, -⟩ :=
          finishConnection_outcome srv.toGlobals p (blocking.wf.take nonempty) conn
        have accept := sslAccept_mem srv.toGlobals p.turn conn
          ⟨live, Or.inr (Or.inr ⟨smtp, negotiating⟩)⟩
        rw [none'] at accept
        rw [step, serve_of_not_awaits _ calm]
        change _ ∈ (finishConnection srv.toGlobals p thread.queue.take conn).2
        rw [events]
        exact List.mem_append_left _ (List.mem_append_left _ accept)
      exact absurd rfl (yields.wouldBlock _ calls).1
  · rintro ⟨⟨smtp, opened⟩, queued⟩
    exact (greets smtp opened).mpr queued

end

/-- **A silent client and the others.**  In every state of every run, a turn of an SMTP or
    HTTP connection whose client has sent nothing gives the thread back exactly if the
    connection is still to be greeted (and the mutex calls of the enqueue succeed); and in
    every run in which enough has come for each call to return, the thread never waits. -/
theorem silent_client_yields_iff (srv : Server) :
    (∀ h s, (thread srv).Reaches Thread.Starts Machine.anyStep h s → s.inside = none →
      ∀ p conn rest, s.queue.contents = conn :: rest → p.dequeueLock = true →
        p.dequeueUnlock = true → conn.type = .smtp ∨ conn.type = .http →
        (Yields conn rest ((thread srv).step s (.process p .nothing)) ↔
          (conn.type = .smtp ∧ conn.state = .mailOpened) ∧
            p.enqueueLock = true ∧ p.enqueueUnlock = true)) ∧
    ∀ h s, (thread srv).Reaches Thread.Starts heardFirst h s → s.inside = none := by
  constructor
  · intro h s reaches running p conn rest front lock unlock service
    exact yields_process_iff (blocking_thread reaches) running front lock unlock service
  · intro h s reaches
    exact running_thread reaches

/-- Two listeners, and nobody there yet. -/
def idleThread : Thread := ⟨connQueueInit, ⟨fun fd => fd = 3 || fd = 4, fun _ => -1⟩, none⟩

theorem idleThread_starts : idleThread.Starts := ⟨rfl, rfl, fun _ => rfl⟩

/-- A client is accepted and greeted, and a second one is accepted. -/
def twoClients : List ThreadInput :=
  [.accept .smtp (.onSocket 5 Connection.zero), .process (.serves .silent) .nothing,
   .accept .smtp (.onSocket 6 Connection.zero)]

theorem silent_client_yields_mailey :
    let first := ((thread (serverWith none)).trace [] idleThread (twoClients.take 1)).2
    let last := ((thread (serverWith none)).trace [] idleThread twoClients).2
    (∃ conn rest, first.queue.contents = conn :: rest ∧
        Yields conn rest ((thread (serverWith none)).step first (.process (.serves .silent) .nothing))) ∧
      last.inside = none := by
  intro first last
  obtain ⟨yields, running⟩ := silent_client_yields_iff (serverWith none)
  constructor
  · have reaches := (Machine.Reaches.start idleThread_starts).trace (twoClients.take 1)
      (Machine.admits_anyStep (thread (serverWith none)) _ _ _)
    have opened : ∀ conn ∈ first.queue.contents, conn.type = .smtp ∧ conn.state = .mailOpened := by
      decide +kernel
    obtain ⟨conn, rest, front⟩ := List.exists_cons_of_ne_nil
      (show first.queue.contents ≠ [] by decide +kernel)
    obtain ⟨smtp, state⟩ := opened conn (by rw [front]; exact List.mem_cons_self)
    refine ⟨conn, rest, front, ?_⟩
    exact (yields _ _ reaches (by decide +kernel) (.serves .silent) conn rest front rfl rfl
      (Or.inl smtp)).mpr ⟨⟨smtp, state⟩, rfl, rfl⟩
  · have admitted : (thread (serverWith none)).Admits heardFirst [] idleThread twoClients := by
      decide +kernel
    exact running _ _ ((Machine.Reaches.start idleThread_starts).trace twoClients admitted)

/-- A client that says nothing after its greeting keeps the thread, and the second one
    is left in the queue. -/
theorem silent_client_stalls :
    let inputs := twoClients ++ [.process (.serves .silent) .nothing]
    let last := (thread (serverWith none)).trace [] idleThread inputs
    (thread (serverWith none)).Reaches Thread.Starts Machine.anyStep last.1 last.2 ∧
      last.2.inside.map Connection.clientsocket = some 5 ∧
      last.2.queue.contents.map Connection.clientsocket = [6] := by
  intro inputs last
  refine ⟨?_, by decide +kernel, by decide +kernel⟩
  exact (Machine.Reaches.start idleThread_starts).trace inputs
    (Machine.admits_anyStep (thread (serverWith none)) _ _ _)

end Femail
