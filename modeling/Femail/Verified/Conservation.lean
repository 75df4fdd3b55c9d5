import Mathlib.Data.List.Nodup
import Femail.Foundation.Lifecycle
import Femail.Verified.Dialogue

/-! # Accepted sockets are conserved

The calls of a run are read as uses of sockets: `accept` acquires one, `close`
releases it, and what goes through an SSL object uses the socket that object was
last bound to.  The invariant of the run is `Conserved`: the open sockets are those
of the waiting connections, each with one of them, and a connection's SSL object is
its own.

The last part rests on `sslconn`, which `handle_connection` leaves as the stack had
it for connections without implicit TLS.  Where that is not null, a new connection
writes to a socket of another one, which may be closed.
-/

namespace Femail

open Foundation

/-! ## The calls as uses of sockets -/

/-- The socket each SSL object is bound to. -/
abbrev Bindings := Ssl → Option Fd

def unbound : Bindings := fun _ => none

def Event.bind (bound : Bindings) : Event → Bindings
  | .sslSetFd (some ssl) fd => Function.update bound ssl (some fd)
  | _ => bound

/-- The use of the socket behind an SSL object. -/
def useThrough (bound : Bindings) (ssl : Option Ssl) : List (Use Fd) :=
  (ssl.bind bound).toList.map .use

def Event.socketUses (bound : Bindings) : Event → List (Use Fd)
  | .accept fd => [.acquire fd]
  | .read fd _ => [.use fd]
  | .dprintf fd _ _ => [.use fd]
  | .sslRead ssl _ => useThrough bound ssl
  | .sslWrite ssl _ _ => useThrough bound ssl
  | .sslAccept ssl _ => useThrough bound ssl
  | .close fd => [.release fd]
  | _ => []

def Event.objectUses : Event → List (Use Ssl)
  | .sslNew _ (some ssl) => [.acquire ssl]
  | .sslFree (some ssl) => [.release ssl]
  | _ => []

def bindings (bound : Bindings) (trace : List Event) : Bindings := trace.foldl Event.bind bound

def socketUses (bound : Bindings) : List Event → List (Use Fd)
  | [] => []
  | e :: trace => e.socketUses bound ++ socketUses (e.bind bound) trace

theorem bindings_append (bound : Bindings) (trace events : List Event) :
    bindings bound (trace ++ events) = bindings (bindings bound trace) events :=
  List.foldl_append

theorem socketUses_append (bound : Bindings) (trace events : List Event) :
    socketUses bound (trace ++ events) =
      socketUses bound trace ++ socketUses (bindings bound trace) events := by
  induction trace generalizing bound with
  | nil => rfl
  | cons e trace ih => simp only [List.cons_append, socketUses, ih, List.append_assoc]; rfl

/-- The sockets that are open after a trace, of those it has accepted. -/
def openSockets (trace : List Event) : Set Fd := heldAfter ∅ (socketUses unbound trace)

/-- The SSL objects a trace has made and not freed. -/
def liveObjects (trace : List Event) : Set Ssl := heldAfter ∅ (trace.flatMap Event.objectUses)

theorem openSockets_append (trace events : List Event) :
    openSockets (trace ++ events) =
      heldAfter (openSockets trace) (socketUses (bindings unbound trace) events) := by
  rw [openSockets, socketUses_append, heldAfter_append]
  rfl

theorem liveObjects_append (trace events : List Event) :
    liveObjects (trace ++ events) =
      heldAfter (liveObjects trace) (events.flatMap Event.objectUses) := by
  rw [liveObjects, List.flatMap_append, heldAfter_append]
  rfl

/-! ## The invariant -/

/-- What a connection record owns outside the heap. -/
def Connection.handles (conn : Connection) : Fd × Option Ssl := (conn.clientsocket, conn.sslconn)

/-- After the calls of `trace`, the owners of sockets and SSL objects are `owned`. -/
structure Conserved (trace : List Event) (owned : List (Fd × Option Ssl)) : Prop where
  safe : Safe ∅ (socketUses unbound trace)
  opened : ∀ fd, fd ∈ openSockets trace ↔ fd ∈ owned.map Prod.fst
  single : (owned.map Prod.fst).Nodup
  bound : ∀ fd ssl, (fd, some ssl) ∈ owned →
    bindings unbound trace ssl = some fd ∧ ssl ∈ liveObjects trace

section

variable {trace : List Event} {owned rest : List (Fd × Option Ssl)}

theorem conserved_nil : Conserved [] [] := by
  refine ⟨trivial, ?_, List.nodup_nil, by simp⟩
  intro fd
  simp [openSockets, socketUses]

theorem Conserved.perm {owned' : List (Fd × Option Ssl)} (conserved : Conserved trace owned)
    (perm : owned.Perm owned') : Conserved trace owned' where
  safe := conserved.safe
  opened fd := (conserved.opened fd).trans (perm.map Prod.fst).mem_iff
  single := (perm.map Prod.fst).nodup_iff.mp conserved.single
  bound fd ssl mem := conserved.bound fd ssl (perm.mem_iff.mpr mem)

/-- Calls that use one owned socket some times, or none. -/
theorem Conserved.uses (conserved : Conserved trace owned) {fd : Fd} {events : List Event}
    (mem : fd ∈ owned.map Prod.fst) (n : Nat)
    (sockets : socketUses (bindings unbound trace) events = List.replicate n (.use fd))
    (binds : bindings (bindings unbound trace) events = bindings unbound trace)
    (objects : events.flatMap Event.objectUses = []) : Conserved (trace ++ events) owned := by
  refine ⟨?_, ?_, conserved.single, ?_⟩
  · rw [socketUses_append, safe_append, sockets]
    exact ⟨conserved.safe, safe_uses ((conserved.opened fd).mpr mem) n⟩
  · rw [openSockets_append, sockets, heldAfter_uses]
    exact conserved.opened
  · rw [bindings_append, binds, liveObjects_append, objects]
    exact conserved.bound

/-- `accept` adds an owner. -/
theorem Conserved.acquire (conserved : Conserved trace owned) {fd : Fd}
    (fresh : fd ∉ openSockets trace) : Conserved (trace ++ [.accept fd]) ((fd, none) :: owned) := by
  refine ⟨?_, ?_, ?_, ?_⟩
  · rw [socketUses_append, safe_append]
    exact ⟨conserved.safe, fresh, trivial⟩
  · intro other
    rw [openSockets_append, List.map_cons, List.mem_cons, ← conserved.opened other]
    exact Iff.rfl
  · exact List.nodup_cons.mpr ⟨fun mem => fresh ((conserved.opened fd).mpr mem), conserved.single⟩
  · intro other ssl mem
    rw [bindings_append, liveObjects_append]
    refine conserved.bound other ssl ?_
    simpa using mem

/-- `SSL_new` and `SSL_set_fd` give an owner a new object, whichever it had. -/
theorem Conserved.upgrade {fd : Fd} {old new : Option Ssl} {ctx : Option SslCtx}
    (conserved : Conserved trace ((fd, old) :: rest)) (fresh : ∀ ssl ∈ new, ssl ∉ liveObjects trace) :
    Conserved (trace ++ [.sslNew ctx new, .sslSetFd new fd]) ((fd, new) :: rest) := by
  have quiet : socketUses (bindings unbound trace) [.sslNew ctx new, .sslSetFd new fd] = [] := rfl
  refine ⟨?_, ?_, conserved.single, ?_⟩
  · rw [socketUses_append, quiet, List.append_nil]
    exact conserved.safe
  · rw [openSockets_append, quiet]
    exact conserved.opened
  · intro other ssl mem
    rw [bindings_append, liveObjects_append]
    obtain here | elsewhere := List.mem_cons.mp mem
    · cases here
      exact ⟨Function.update_self _ _ _, Set.mem_insert _ _⟩
    · obtain ⟨binds, live⟩ := conserved.bound other ssl (List.mem_cons_of_mem _ elsewhere)
      cases new with
      | none => exact ⟨binds, live⟩
      | some object =>
        have differs : ssl ≠ object := by
          rintro rfl
          exact fresh ssl rfl live
        exact ⟨(Function.update_of_ne differs _ _).trans binds, Set.mem_insert_of_mem _ live⟩

/-- The three calls of `connection_deinit` remove an owner. -/
theorem Conserved.deinit {fd : Fd} {ssl : Option Ssl} {addr : Option Addr}
    (conserved : Conserved trace ((fd, ssl) :: rest)) :
    Conserved (trace ++ [.sslFree ssl, .free addr, .close fd]) rest := by
  have closes : socketUses (bindings unbound trace) [.sslFree ssl, .free addr, .close fd] =
      [.release fd] := rfl
  obtain ⟨alone, single⟩ := List.nodup_cons.mp conserved.single
  refine ⟨?_, ?_, single, ?_⟩
  · rw [socketUses_append, safe_append, closes]
    exact ⟨conserved.safe, (conserved.opened fd).mpr List.mem_cons_self, trivial⟩
  · intro other
    rw [openSockets_append, closes]
    have before := conserved.opened other
    rw [List.map_cons, List.mem_cons] at before
    constructor
    · rintro ⟨mem, differs⟩
      exact (before.mp mem).resolve_left differs
    · intro mem
      refine ⟨before.mpr (Or.inr mem), ?_⟩
      rintro rfl
      exact alone mem
  · intro other object mem
    rw [bindings_append, liveObjects_append]
    obtain ⟨binds, live⟩ := conserved.bound other object (List.mem_cons_of_mem _ mem)
    cases ssl with
    | none => exact ⟨binds, live⟩
    | some freed =>
      refine ⟨binds, live, ?_⟩
      -- a shared object would be bound to both sockets
      rintro rfl
      have same := (conserved.bound fd object List.mem_cons_self).1.symm.trans binds
      cases same
      exact alone (List.mem_map_of_mem mem)

end

/-! ## One step -/

section

variable {trace : List Event} {rest : List (Fd × Option Ssl)} {conn : Connection}

/-- The socket behind a connection's own SSL object is its own. -/
theorem Conserved.useThrough_sslconn (conserved : Conserved trace (conn.handles :: rest)) :
    ∃ n, useThrough (bindings unbound trace) conn.sslconn =
      List.replicate n (.use conn.clientsocket) := by
  cases ssl : conn.sslconn with
  | none => exact ⟨0, rfl⟩
  | some object =>
    have owns : (conn.clientsocket, some object) ∈ conn.handles :: rest := by
      simp [Connection.handles, ssl]
    have binds := (conserved.bound _ _ owns).1
    exact ⟨1, by simp [useThrough, binds]⟩

/-- A call that stays with its connection. -/
theorem Conserved.within (conserved : Conserved trace (conn.handles :: rest)) {e : Event}
    (within : e.Within conn) : Conserved (trace ++ [e]) (conn.handles :: rest) := by
  have mine : conn.clientsocket ∈ (conn.handles :: rest).map Prod.fst := List.mem_cons_self
  obtain ⟨n, through⟩ := conserved.useThrough_sslconn
  cases e with
  | read fd | dprintf fd =>
    cases within
    exact conserved.uses mine 1 rfl rfl rfl
  -- through its own object a connection reaches its own socket
  | sslRead ssl | sslWrite ssl =>
    cases within
    refine conserved.uses mine n ?_ rfl rfl
    rw [← through]
    exact List.append_nil _
  | sslAccept ssl =>
    cases within.1
    refine conserved.uses mine n ?_ rfl rfl
    rw [← through]
    exact List.append_nil _
  | realloc | store | parseClientCommand => exact conserved.uses mine 0 rfl rfl rfl
  | _ => cases within

theorem Conserved.within_all {events : List Event} (within : ∀ e ∈ events, e.Within conn)
    (conserved : Conserved trace (conn.handles :: rest)) :
    Conserved (trace ++ events) (conn.handles :: rest) := by
  induction events generalizing trace with
  | nil => simpa using conserved
  | cons e events ih =>
    obtain ⟨first, others⟩ := List.forall_mem_cons.mp within
    rw [List.append_cons]
    exact ih others (conserved.within first)

theorem objectUses_of_within {e : Event} (within : e.Within conn) : e.objectUses = [] := by
  cases e with
  | sslNew | sslFree => cases within
  | _ => rfl

/-- What `accept` and `SSL_new` return is not in use after `trace`. -/
def Event.Fresh (trace : List Event) : Event → Prop
  | .accept fd => fd ∉ openSockets trace
  | .sslNew _ (some ssl) => ssl ∉ liveObjects trace
  | _ => True

instance (trace : List Event) : DecidablePred (Event.Fresh trace)
  | .accept fd => inferInstanceAs (Decidable (fd ∉ heldAfter ∅ _))
  | .sslNew _ (some ssl) => inferInstanceAs (Decidable (ssl ∉ heldAfter ∅ _))
  | .sslNew _ none => .isTrue trivial
  | .socket _ | .read _ _ | .sslRead _ _ | .dprintf _ _ _ | .sslWrite _ _ _ | .sslSetFd _ _
  | .sslAccept _ _ | .sslFree _ | .realloc _ _ _ | .store _ _ _ | .free _ | .close _
  | .parseClientCommand _ _ | .handlerReturned _ => .isTrue trivial

/-- A handler works with what its connection owns, and may give it a new object. -/
theorem Conserved.handle {g : Globals} {t : Turn} (conserved : Conserved trace (conn.handles :: rest))
    (fresh : ∀ e ∈ (connectionHandler g t conn).events, e.Fresh trace) :
    Conserved (trace ++ (connectionHandler g t conn).events)
      ((connectionHandler g t conn).conn.handles :: rest) := by
  have footprint := footprint_connectionHandler g t conn
  cases footprint.tls with
  | inl keeps =>
    have same : (connectionHandler g t conn).conn.handles = conn.handles := by
      simp only [Connection.handles, footprint.clientsocket, keeps.sslconn]
    rw [same]
    exact conserved.within_all keeps.within
  | inr upgrades =>
    have owns : (connectionHandler g t conn).conn.handles =
        (conn.clientsocket, sslNewResult g t.sslNew) := by
      simp only [Connection.handles, footprint.clientsocket, upgrades.sslconn]
    -- first the calls on what it has, then the new object
    obtain ⟨before, calls, -, within⟩ := upgrades.calls
    rw [calls] at fresh
    rw [owns, calls, ← List.append_assoc]
    refine (conserved.within_all within).upgrade ?_
    intro ssl given
    have quiet : before.flatMap Event.objectUses = [] :=
      List.flatMap_eq_nil_iff.mpr fun e mem => objectUses_of_within (within e mem)
    rw [liveObjects_append, quiet, heldAfter_nil]
    have new := fresh (.sslNew g.sslctx (sslNewResult g t.sslNew)) (by simp)
    rw [Option.mem_def.mp given] at new
    exact new

/-- The switch on the handler's result keeps the connection or closes it. -/
theorem Conserved.serve {g : Globals} {t : Turn} (conserved : Conserved trace (conn.handles :: rest))
    (fresh : ∀ e ∈ (serveConnection g t conn).2, e.Fresh trace) :
    Conserved (trace ++ (serveConnection g t conn).2)
      ((serveConnection g t conn).1.toList.map Connection.handles ++ rest) := by
  have handled := conserved.handle (g := g) (t := t)
    fun e mem => fresh e (List.mem_append_left _ mem)
  have mine : (connectionHandler g t conn).conn.clientsocket ∈
      ((connectionHandler g t conn).conn.handles :: rest).map Prod.fst := List.mem_cons_self
  have returned : Conserved (trace ++ (connectionHandler g t conn).events ++
      [.handlerReturned (connectionHandler g t conn).result])
      ((connectionHandler g t conn).conn.handles :: rest) := handled.uses mine 0 rfl rfl rfl
  simp only [serveConnection, settleConnection]
  rw [List.append_cons, ← List.append_assoc, ← List.append_assoc]
  generalize (connectionHandler g t conn).result = result at returned ⊢
  cases result with
  | «continue» => simpa [Connection.handles] using returned
  -- the `free` of a reset concerns neither sockets nor SSL objects
  | reset => exact returned.uses mine 0 rfl rfl rfl
  | done | error => exact returned.deinit

end

/-- `connection_init` on a record whose SSL object is its own or null. -/
theorem Conserved.accept {trace : List Event} {owned : List (Fd × Option Ssl)} {g : Globals}
    {a : AcceptTurn} {type : ConnectionType} {strat : SslStrategy} (conserved : Conserved trace owned)
    (fresh : ∀ e ∈ .accept a.ret :: (newConnection g a type strat).2, e.Fresh trace)
    (clean : strat ≠ .implicitTls → a.leftover.sslconn = none) :
    Conserved (trace ++ .accept a.ret :: (newConnection g a type strat).2)
      ((acceptedConnection g a type strat).handles :: owned) := by
  have acquired := conserved.acquire (fresh (.accept a.ret) List.mem_cons_self)
  rw [List.append_cons, Connection.handles, clientsocket_acceptedConnection,
    sslconn_acceptedConnection]
  rw [events_newConnection] at fresh ⊢
  by_cases implicit : strat = .implicitTls
  · rw [if_pos implicit] at fresh ⊢
    rw [if_pos implicit]
    refine acquired.upgrade ?_
    intro ssl given
    rw [liveObjects_append]
    have new := fresh (.sslNew g.sslctx (sslNewResult g a.sslNew)) (by simp)
    rw [Option.mem_def.mp given] at new
    exact new
  · rw [if_neg implicit, if_neg implicit, clean implicit, List.append_nil]
    exact acquired

/-- The record of a connection without implicit TLS begins with no SSL object. -/
def cleanRecord (srv : Server) : MasterInput → Prop
  | .accept type a => srv.active type = true → a.ret ≠ -1 → srv.strategy type ≠ .implicitTls →
      a.leftover.sslconn = none
  | .process _ => True

instance (srv : Server) : DecidablePred (cleanRecord srv)
  | .accept _ _ => inferInstanceAs (Decidable (_ → _))
  | .process _ => .isTrue trivial

/-- **One step.** -/
theorem Conserved.step {srv : Server} {held held' : List Connection} {input : MasterInput}
    {trace events : List Event} (moves : MasterStep srv held input held' events)
    (fresh : ∀ e ∈ events, e.Fresh trace) (clean : cleanRecord srv input)
    (conserved : Conserved trace (held.map Connection.handles)) :
    Conserved (trace ++ events) (held'.map Connection.handles) := by
  cases moves with
  | quiet | idle => simpa using conserved
  | rejected type a up given =>
    -- the connection is an owner between its `accept` and its deinitialisation
    have early := fun e mem => fresh e (List.mem_append_left _ mem)
    have accepted := conserved.accept early (clean up given)
    rw [connectionDeinit_newConnection, ← List.append_assoc]
    rw [Connection.handles, clientsocket_acceptedConnection] at accepted
    exact accepted.deinit
  | accepted type a up given =>
    refine (conserved.accept fresh (clean up given)).perm ?_
    rw [List.map_append]
    exact (List.perm_append_singleton _ _).symm
  | served p conn others front =>
    rw [front] at conserved
    refine (conserved.serve fresh).perm ?_
    rw [List.map_append]
    exact List.perm_append_comm

/-! ## Runs -/

/-- The calls of a run, oldest first. -/
def calls : MasterHistory → List Event
  | [] => []
  | entry :: older => calls older ++ entry.output

/-- The mutex calls succeed, and what `accept` and `SSL_new` return is not in use. -/
def soundOutcomes (srv : Server) : MasterHistory → ConnectionQueue → MasterInput → Prop :=
  fun h queue input => input.MutexOk ∧ ∀ e ∈ (masterStep srv queue input).2, e.Fresh (calls h)

/-- Steps with sound outcomes that begin new connections with a clean record. -/
def soundAndClean (srv : Server) : MasterHistory → ConnectionQueue → MasterInput → Prop :=
  fun h queue input => soundOutcomes srv h queue input ∧ cleanRecord srv input

instance (srv : Server) : ∀ h queue input, Decidable (soundOutcomes srv h queue input) :=
  fun _ _ _ => inferInstanceAs (Decidable (_ ∧ _))

instance (srv : Server) : ∀ h queue input, Decidable (soundAndClean srv h queue input) :=
  fun _ _ _ => inferInstanceAs (Decidable (_ ∧ _))

theorem conserved_run {srv : Server} {h : MasterHistory} {queue : ConnectionQueue}
    (reaches : (master srv).Reaches (· = connQueueInit) (soundAndClean srv) h queue) :
    queue.Wf ∧ Conserved (calls h) (queue.contents.map Connection.handles) := by
  apply Machine.Reaches.invariant (fun h queue => queue.Wf ∧
    Conserved (calls h) (queue.contents.map Connection.handles)) _ _ reaches
  · rintro queue rfl
    exact ⟨Ring.wf_cleared _, conserved_nil⟩
  · intro h queue input inv allowed
    obtain ⟨wf, conserved⟩ := inv
    obtain ⟨⟨ok, fresh⟩, clean⟩ := allowed
    exact ⟨wf_masterStep srv wf input, conserved.step (masterStep_moves srv wf ok) fresh clean⟩

/-- A step with working mutex calls drops a waiting connection only if its handler
    returns DONE or ERROR. -/
theorem kept_or_finished {srv : Server} {queue : ConnectionQueue} {input : MasterInput}
    (wf : queue.Wf) (ok : input.MutexOk) {conn : Connection} (mem : conn ∈ queue.contents) :
    (∃ conn' ∈ (masterStep srv queue input).1.contents, conn'.clientsocket = conn.clientsocket) ∨
    ∃ p, input = .process p ∧ queue.contents.head? = some conn ∧
      ((connectionHandler srv.toGlobals p.turn conn).result = .done ∨
        (connectionHandler srv.toGlobals p.turn conn).result = .error) := by
  have moves := masterStep_moves srv wf ok
  generalize queue.contents = held at moves mem ⊢
  generalize (masterStep srv queue input).1.contents = next at moves ⊢
  generalize (masterStep srv queue input).2 = events at moves
  cases moves with
  | quiet | rejected | idle => exact Or.inl ⟨conn, mem, rfl⟩
  | accepted => exact Or.inl ⟨conn, List.mem_append_left _ mem, rfl⟩
  | served p front rest first =>
    subst first
    cases mem with
    | tail _ waiting => exact Or.inl ⟨conn, List.mem_append_left _ waiting, rfl⟩
    | head =>
      have socket := (footprint_connectionHandler srv.toGlobals p.turn conn).clientsocket
      cases next : (serveConnection srv.toGlobals p.turn conn).1 with
      | none => exact Or.inr ⟨p, rfl, rfl, serveConnection_of_finished next⟩
      | some conn' =>
        refine Or.inl ⟨conn', by simp, ?_⟩
        obtain ⟨-, rfl⟩ | ⟨-, rfl⟩ := serveConnection_of_kept next
        · exact socket
        · exact socket

/-- The slot that a dequeue frees is there for the connection to go back into. -/
theorem connQueueEnqueue_after_dequeue {queue : ConnectionQueue} (wf : queue.Wf) {p : ProcessTurn}
    (ok : p.MutexOk)
    (taken : (connQueueDequeue p.dequeueLock p.dequeueUnlock queue Connection.zero).1 = 0)
    (conn : Connection) :
    (connQueueEnqueue p.enqueueLock p.enqueueUnlock p.turn.now
      (connQueueDequeue p.dequeueLock p.dequeueUnlock queue Connection.zero).2.1 conn).1 = 0 := by
  obtain ⟨-, -, lock, unlock⟩ := ok
  obtain ⟨⟨-, -, nonempty⟩, dequeue⟩ := connQueueDequeue_of_taken taken
  rw [dequeue]
  simp [connQueueEnqueue, lock, unlock, wf.take_count_ne nonempty]

/-- **Accepted sockets are conserved.**  In every run with sound outcomes whose new
    connections without implicit TLS begin with no SSL object:

    * whenever a socket was accepted, either it has only been used since, is open, and
      belongs to exactly one waiting connection, or it was closed once, and nothing came
      after that until the descriptor was accepted anew;
    * a connection that `process_connection` took out can go back;
    * and a step drops a waiting connection only if its handler returns DONE or ERROR. -/
theorem sockets_conserved {srv : Server} {h : MasterHistory} {queue : ConnectionQueue}
    (reaches : (master srv).Reaches (· = connQueueInit) (soundAndClean srv) h queue) :
    (∀ before fd after, socketUses unbound (calls h) = before ++ .acquire fd :: after →
      ∃ n, (life fd after = List.replicate n (.use fd) ∧ fd ∈ openSockets (calls h) ∧
          (queue.contents.map Connection.clientsocket).count fd = 1) ∨
        life fd after = List.replicate n (.use fd) ++ [.release fd]) ∧
    (∀ p : ProcessTurn, p.MutexOk →
      (connQueueDequeue p.dequeueLock p.dequeueUnlock queue Connection.zero).1 = 0 → ∀ conn,
        (connQueueEnqueue p.enqueueLock p.enqueueUnlock p.turn.now
          (connQueueDequeue p.dequeueLock p.dequeueUnlock queue Connection.zero).2.1 conn).1 = 0) ∧
    ∀ input, input.MutexOk → ∀ conn ∈ queue.contents,
      (∃ conn' ∈ ((master srv).step queue input).1.contents,
        conn'.clientsocket = conn.clientsocket) ∨
      ∃ p, input = .process p ∧ queue.contents.head? = some conn ∧
        ((connectionHandler srv.toGlobals p.turn conn).result = .done ∨
          (connectionHandler srv.toGlobals p.turn conn).result = .error) := by
  obtain ⟨wf, conserved⟩ := conserved_run reaches
  have sockets : (queue.contents.map Connection.handles).map Prod.fst =
      queue.contents.map Connection.clientsocket := List.map_map
  refine ⟨?_, ?_, ?_⟩
  · intro before fd after split
    have safe := conserved.safe
    rw [split] at safe
    obtain ⟨n, ⟨uses, held⟩ | closed⟩ := safe.fate
    · have isOpen : fd ∈ openSockets (calls h) := by
        rw [openSockets, split]
        exact held
      have owned := (conserved.opened fd).mp isOpen
      have single := conserved.single
      rw [sockets] at owned single
      exact ⟨n, Or.inl ⟨uses, isOpen, List.count_eq_one_of_mem single owned⟩⟩
    · exact ⟨n, Or.inr closed⟩
  · intro p ok taken
    exact connQueueEnqueue_after_dequeue wf ok taken
  · intro input ok conn mem
    exact kept_or_finished wf ok mem

/-- A client that leaves, and one that gets its descriptor and stays. -/
def quitInputs : List MasterInput :=
  [.accept .smtp (.onSocket 5 Connection.zero), .process (.serves .silent),
   .process (.serves quitTurn),
   .accept .http (.onSocket 5 Connection.zero), .process (.serves .silent)]

theorem sockets_conserved_quit :
    let last := (master (serverWith (some 1))).trace [] connQueueInit quitInputs
    socketUses unbound (calls last.1) =
        [.acquire 5, .use 5, .use 5, .use 5, .release 5, .acquire 5, .use 5] ∧
      (last.2.contents.map Connection.clientsocket).count 5 = 1 := by
  intro last
  have admitted : (master (serverWith (some 1))).Admits (soundAndClean (serverWith (some 1))) []
      connQueueInit quitInputs := by
    decide +kernel
  have idle : (master (serverWith (some 1))).Reaches (· = connQueueInit)
      (soundAndClean (serverWith (some 1))) [] connQueueInit := .start rfl
  have uses : socketUses unbound (calls last.1) =
      [.acquire 5, .use 5, .use 5, .use 5, .release 5] ++ .acquire 5 :: [.use 5] := by
    decide +kernel
  refine ⟨uses, ?_⟩
  obtain ⟨n, ⟨-, -, owned⟩ | closed⟩ :=
    (sockets_conserved (idle.trace _ admitted)).1 _ 5 _ uses
  · exact owned
  · have short := congrArg (List.getLast? ·) closed
    simp [life] at short

/-- A client that starts TLS twice, so that its first SSL object stays bound to the
    socket when it is closed, and one whose record begins with that object. -/
def staleInputs : List MasterInput :=
  [.accept .smtp (.onSocket 5 Connection.zero), .process (.serves .silent),
   .process (.serves starttlsTurn), .process (.serves { Turn.silent with sslAccept := 1 }),
   .process (.serves { starttlsTurn with sslNew := some 2 }),
   .process (.serves { Turn.silent with sslGetError := .other 1 }),
   .accept .smtp (.onSocket 6 { Connection.zero with sslconn := some 1 }),
   .process (.serves .silent)]

/-- The greeting of the second client is written to the closed socket of the first. -/
theorem stale_object_writes_closed_socket :
    let last := (master (serverWith (some 1))).trace [] connQueueInit staleInputs
    (master (serverWith (some 1))).Reaches (· = connQueueInit)
        (soundOutcomes (serverWith (some 1))) last.1 last.2 ∧
      ∃ after, socketUses unbound (calls last.1) = [] ++ .acquire 5 :: after ∧
        life 5 after = List.replicate 7 (.use 5) ++ [.release 5, .use 5] := by
  intro last
  have admitted : (master (serverWith (some 1))).Admits (soundOutcomes (serverWith (some 1))) []
      connQueueInit staleInputs := by
    decide +kernel
  have idle : (master (serverWith (some 1))).Reaches (· = connQueueInit)
      (soundOutcomes (serverWith (some 1))) [] connQueueInit := .start rfl
  refine ⟨idle.trace _ admitted, (socketUses unbound (calls last.1)).tail, ?_, ?_⟩
  · decide +kernel
  · decide +kernel

end Femail
