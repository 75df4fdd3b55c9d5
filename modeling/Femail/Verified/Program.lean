import Femail.Foundation.Frames
import Femail.Server.Program
import Femail.Verified.Conservation
import Femail.Verified.Listeners

/-! # Whole runs of the program

Two resources of `main` are followed from its first call to its last.  The TLS context is
made, used by start-up and by every `SSL_new` of the master thread, and freed; that needs
no assumption.  For descriptors the owners are put side by side: the services own what
their start functions open, the connections what `accept` returns, and the process what
it inherited.  Each is safe alone (`Balances`, `Conserved`), and under the kernel's promise
that it gives out no open descriptor the frame rule makes them safe together.
-/

namespace Femail

open Foundation

/-! ## The calls of the master thread -/

/-- A pass of the loop with its calls is a run of `master` over its steps: an `accept`
    stands in front of what comes of it. -/
theorem acceptFrom_eq (srv : Server) (listener : Fd) (type : ConnectionType) (a : AcceptTurn)
    (queue : ConnectionQueue) (up : srv.active type = true) :
    acceptFrom srv listener type (srv.strategy type) a queue =
      ((masterStep srv queue (.accept type a)).1,
        .accept listener :: (masterStep srv queue (.accept type a)).2.map .event) := by
  simp [acceptFrom, masterStep, up]

/-- The calls `calls` are the steps' events with `accept` calls on open listeners put in
    between. -/
inductive Polls (srv : Server) : List Event → List Call → Prop where
  | nil : Polls srv [] []
  | event (e : Event) {events : List Event} {calls : List Call} : Polls srv events calls →
      Polls srv (e :: events) (.event e :: calls)
  | accept (type : ConnectionType) (listener : Fd) {events : List Event} {calls : List Call} :
      listener = (srv.context type).socket4 ∨ listener = (srv.context type).socket6 →
      Polls srv events calls → Polls srv events (.accept listener :: calls)

section

variable {srv : Server}

theorem Polls.append {events events' : List Event} {calls calls' : List Call}
    (first : Polls srv events calls) (second : Polls srv events' calls') :
    Polls srv (events ++ events') (calls ++ calls') := by
  induction first with
  | nil => exact second
  | event e _ ih => exact .event e ih
  | accept type listener its _ ih => exact .accept type listener its ih

theorem polls_events (events : List Event) : Polls srv events (events.map .event) := by
  induction events with
  | nil => exact .nil
  | cons e events ih => exact .event e ih

/-- What a stretch of the loop leaves and calls is a run of `master` over its steps. -/
structure Stretch (srv : Server) (queue : ConnectionQueue) (inputs : List MasterInput)
    (last : ConnectionQueue) (calls : List Call) : Prop where
  leaves : last = ((master srv).run queue inputs).2
  polls : Polls srv ((master srv).run queue inputs).1.flatten calls

theorem Stretch.append {queue last last' : ConnectionQueue} {inputs more : List MasterInput}
    {calls calls' : List Call} (first : Stretch srv queue inputs last calls)
    (second : Stretch srv last more last' calls') :
    Stretch srv queue (inputs ++ more) last' (calls ++ calls') := by
  obtain ⟨rfl, polls⟩ := first
  obtain ⟨rfl, polls'⟩ := second
  refine ⟨by rw [Machine.run_append], ?_⟩
  rw [Machine.run_append, List.flatten_append]
  exact polls.append polls'

theorem stretch_accept (type : ConnectionType) (listener : Fd) (a : AcceptTurn)
    (queue : ConnectionQueue)
    (its : listener = (srv.context type).socket4 ∨ listener = (srv.context type).socket6) :
    Stretch srv queue [.accept type a] (masterStep srv queue (.accept type a)).1
      (.accept listener :: (masterStep srv queue (.accept type a)).2.map .event) := by
  refine ⟨rfl, ?_⟩
  have events : ((master srv).run queue [.accept type a]).1.flatten =
      (masterStep srv queue (.accept type a)).2 := List.append_nil _
  rw [events]
  exact .accept type listener its (polls_events _)

theorem stretch_acceptBoth (srv : Server) (type : ConnectionType) (l : LoopTurn) (queue : ConnectionQueue) :
    Stretch srv queue [.accept type (l.accept4 type), .accept type (l.accept6 type)]
      (acceptBoth srv type (srv.strategy type) l queue).1
      (acceptBoth srv type (srv.strategy type) l queue).2 := by
  cases up : srv.active type with
  | false =>
    have quiet : ∀ queue a, masterStep srv queue (.accept type a) = (queue, []) := by
      intro queue a
      simp [masterStep, up]
    refine ⟨by simp [acceptBoth, up, master, Machine.run, quiet], ?_⟩
    simp only [acceptBoth, up, master, Machine.run, quiet]
    exact .nil
  | true =>
    simp only [acceptBoth, up, if_true, acceptFrom_eq srv _ type _ _ up]
    have first := stretch_accept type (srv.context type).socket4 (l.accept4 type) queue (Or.inl rfl)
    exact first.append
      (stretch_accept type (srv.context type).socket6 (l.accept6 type) _ (Or.inr rfl))

theorem stretch_masterPass (srv : Server) (l : LoopTurn) (queue : ConnectionQueue) :
    Stretch srv queue l.inputs (masterPass srv l queue).1 (masterPass srv l queue).2 := by
  have processed : ∀ queue, Stretch srv queue [.process l.process]
      (processConnection srv.toGlobals l.process queue).1
      ((processConnection srv.toGlobals l.process queue).2.map .event) := by
    intro queue
    refine ⟨rfl, ?_⟩
    simpa [Machine.run, master, masterStep] using polls_events _
  have smtp := stretch_acceptBoth srv .smtp l queue
  have smtps := smtp.append (stretch_acceptBoth srv .smtps l _)
  have starttls := smtps.append (stretch_acceptBoth srv .starttls l _)
  have http := starttls.append (stretch_acceptBoth srv .http l _)
  have https := http.append (stretch_acceptBoth srv .https l _)
  exact https.append (processed _)

theorem stretch_masterPasses (srv : Server) (passes : List LoopTurn) (queue : ConnectionQueue) :
    Stretch srv queue (passes.flatMap LoopTurn.inputs) (masterPasses srv passes queue).1
      (masterPasses srv passes queue).2 := by
  induction passes generalizing queue with
  | nil => exact ⟨rfl, .nil⟩
  | cons l passes ih =>
    rw [List.flatMap_cons]
    exact (stretch_masterPass srv l queue).append (ih _)

/-- The calls a step of the master thread can make, whatever the mutex calls do. -/
inductive StepCall (srv : Server) : Event → Prop where
  | accept (fd : Fd) : StepCall srv (.accept fd)
  | sslNew (ssl : Option Ssl) : StepCall srv (.sslNew srv.sslctx ssl)
  | sslSetFd (ssl : Option Ssl) (fd : Fd) : StepCall srv (.sslSetFd ssl fd)
  | within (conn : Connection) (e : Event) : e.Within conn → StepCall srv e
  | returned (result : ConnectionHandlerResult) : StepCall srv (.handlerReturned result)
  | sslFree (ssl : Option Ssl) : StepCall srv (.sslFree ssl)
  | free (addr : Option Addr) : StepCall srv (.free addr)
  | close (fd : Fd) : StepCall srv (.close fd)

theorem stepCall_connectionDeinit (conn : Connection) :
    ∀ e ∈ connectionDeinit conn, StepCall srv e := by
  simp only [connectionDeinit, List.forall_mem_cons, List.not_mem_nil, false_imp_iff, implies_true,
    and_true]
  exact ⟨.sslFree _, .free _, .close _⟩

theorem stepCall_connectionHandler (t : Turn) (conn : Connection) :
    ∀ e ∈ (connectionHandler srv.toGlobals t conn).events, StepCall srv e := by
  cases (footprint_connectionHandler srv.toGlobals t conn).tls with
  | inl keeps => exact fun e mem => .within conn e (keeps.within e mem)
  | inr upgrades =>
    obtain ⟨before, calls, -, within⟩ := upgrades.calls
    rw [calls]
    intro e mem
    obtain early | late := List.mem_append.mp mem
    · exact .within conn e (within e early)
    · rw [List.mem_pair] at late
      rcases late with rfl | rfl
      · exact .sslNew _
      · exact .sslSetFd _ _

theorem stepCall_serveConnection (t : Turn) (conn : Connection) :
    ∀ e ∈ (serveConnection srv.toGlobals t conn).2, StepCall srv e :=
  forall_mem_serveConnection .returned .free stepCall_connectionDeinit
    (stepCall_connectionHandler t conn)

theorem stepCall_newConnection (a : AcceptTurn) (type : ConnectionType) (strat : SslStrategy) :
    ∀ e ∈ (newConnection srv.toGlobals a type strat).2, StepCall srv e := by
  rw [events_newConnection]
  split
  · simp only [List.forall_mem_cons, List.not_mem_nil, false_imp_iff, implies_true, and_true]
    exact ⟨.sslNew _, .sslSetFd _ _⟩
  · simp

theorem stepCall_masterStep {queue : ConnectionQueue} (wf : queue.Wf) (input : MasterInput) :
    ∀ e ∈ (masterStep srv queue input).2, StepCall srv e := by
  cases input with
  | process p =>
    obtain ⟨quiet, -⟩ | ⟨front, -, -, -, ⟨late, calls, kind⟩, -⟩ :=
      processConnection_outcome srv.toGlobals p wf
    · simp [masterStep, quiet]
    · simp only [masterStep, calls, List.forall_mem_append]
      refine ⟨stepCall_serveConnection p.turn front, ?_⟩
      obtain rfl | ⟨conn, rfl⟩ := kind
      · simp
      · exact stepCall_connectionDeinit conn
  | accept type a =>
    cases up : srv.active type with
    | false => simp [masterStep, up]
    | true =>
      simp only [masterStep, up, if_true, events_handleConnection]
      split
      · simp
      · simp only [List.cons_append, List.forall_mem_cons, List.forall_mem_append]
        refine ⟨.accept _, stepCall_newConnection a type _, ?_⟩
        split
        · simp
        · exact stepCall_connectionDeinit _

theorem stepCall_run (inputs : List MasterInput) {queue : ConnectionQueue} (wf : queue.Wf) :
    ∀ e ∈ ((master srv).run queue inputs).1.flatten, StepCall srv e := by
  induction inputs generalizing queue with
  | nil => simp [Machine.run]
  | cons input inputs ih =>
    simp only [Machine.run, List.flatten_cons, List.forall_mem_append]
    exact ⟨stepCall_masterStep wf input, ih (wf_masterStep srv wf input)⟩

end

/-! ## The TLS context -/

/-- What a call does with the context it is given.  A call that is given a null one uses no
    context: it is `Call.onNullContext`. -/
def Call.contextUses : Call → List (Use SslCtx)
  | .sslCtxNew ctx => ctx.toList.map .acquire
  | .sslCtxSetOptions ctx => ctx.toList.map .use
  | .sslCtxUseCertificateChainFile ctx _ => ctx.toList.map .use
  | .sslCtxUsePrivateKeyFile ctx _ => ctx.toList.map .use
  | .sslCtxConfigure ctx => [.use ctx]
  | .sslCtxFree ctx => ctx.toList.map .release
  | .event (.sslNew ctx _) => ctx.toList.map .use
  | _ => []

def contextUses (calls : List Call) : List (Use SslCtx) := calls.flatMap Call.contextUses

/-- The call is given a null context. -/
def Call.onNullContext : Call → Bool
  | .sslCtxSetOptions ctx => ctx.isNone
  | .sslCtxUseCertificateChainFile ctx _ => ctx.isNone
  | .sslCtxUsePrivateKeyFile ctx _ => ctx.isNone
  | .sslCtxFree ctx => ctx.isNone
  | .event (.sslNew ctx _) => ctx.isNone
  | _ => false

@[simp] theorem contextUses_append (calls calls' : List Call) :
    contextUses (calls ++ calls') = contextUses calls ++ contextUses calls' :=
  List.flatMap_append

/-- Start-up is left with the context it loaded, and with none if it dropped it. -/
theorem sole_loadCalls (s : StartTurn) : Sole (contextUses (loadCalls s)) (loadSslctx s) := by
  unfold loadCalls loadSslctx
  cases s.sslCtxNew with
  | none =>
    by_cases certificate : s.certificate ≤ 0 <;> by_cases key : s.privateKey ≤ 0 <;>
      simpa [certificate, key, contextUses, Call.contextUses] using sole_nil
  | some ctx =>
    -- the context is freed by the first load that fails, and the second finds none
    by_cases certificate : s.certificate ≤ 0 <;> by_cases key : s.privateKey ≤ 0 <;>
      refine ⟨?_, ?_⟩ <;>
      simp [certificate, key, contextUses, Call.contextUses, Safe, Use.ok, Use.apply]

/-- A context that start-up is left with was there for every load. -/
theorem onNullContext_loadCalls {s : StartTurn} {ctx : SslCtx} (loaded : loadSslctx s = some ctx) :
    ∀ call ∈ loadCalls s, call.onNullContext = false := by
  unfold loadSslctx at loaded
  unfold loadCalls
  by_cases certificate : s.certificate ≤ 0 <;> by_cases key : s.privateKey ≤ 0 <;>
    simp only [certificate, key, if_true, if_false, reduceCtorEq] at loaded
  simp [certificate, key, loaded, Call.onNullContext]

/-- The start functions open and close descriptors, and do nothing else. -/
inductive ListenerCall : Event → Prop where
  | socket (fd : Fd) : ListenerCall (.socket fd)
  | close (fd : Fd) : ListenerCall (.close fd)

theorem listenerCall_startSocket (t : SocketTurn) : ∀ e ∈ (startSocket t).2, ListenerCall e := by
  unfold startSocket
  have both : ∀ e ∈ [Event.socket t.socket, .close t.socket], ListenerCall e := by
    simp only [List.forall_mem_cons, List.not_mem_nil, false_imp_iff, implies_true, and_true]
    exact ⟨.socket _, .close _⟩
  split
  · simp
  · split
    · exact both
    · split
      · exact both
      · exact fun e mem => both e (List.mem_cons.mpr (Or.inl (List.mem_singleton.mp mem)))

theorem listenerCall_startCalls (s : StartTurn) (type : ConnectionType) :
    ∀ e ∈ startCalls s type, ListenerCall e := by
  have both : ∀ e ∈ (startSocket (s.socket4 type)).2 ++ (startSocket (s.socket6 type)).2,
      ListenerCall e :=
    List.forall_mem_append.mpr ⟨listenerCall_startSocket _, listenerCall_startSocket _⟩
  obtain ⟨-, -, quiet, -⟩ | ⟨-, -, -, calls⟩ :=
    Contexts.zero.start_cases (loadSslctx s) (s.socket4 type) (s.socket6 type) type
  · have none : startCalls s type = [] := by cases type <;> exact quiet
    simp [none]
  · have same : startCalls s type =
        (startSocket (s.socket4 type)).2 ++ (startSocket (s.socket6 type)).2 := by
      cases type <;> exact calls
    rw [same]
    exact both

theorem listenerCall_stopCalls (srv : Server) (type : ConnectionType) :
    ∀ e ∈ stopCalls srv type, ListenerCall e := by
  rw [stopCalls_eq]
  intro e mem
  obtain ⟨fd, -, rfl⟩ := List.mem_map.mp mem
  exact .close fd

theorem contextUses_listeners {events : List Event} (listeners : ∀ e ∈ events, ListenerCall e) :
    contextUses (events.map .event) = [] := by
  refine List.flatMap_eq_nil_iff.mpr ?_
  intro call mem
  obtain ⟨e, inside, rfl⟩ := List.mem_map.mp mem
  cases listeners e inside <;> rfl

theorem contextUses_services {calls : ConnectionType → List Event}
    (listeners : ∀ type, ∀ e ∈ calls type, ListenerCall e) :
    contextUses ((services.flatMap calls).map .event) = [] := by
  refine contextUses_listeners ?_
  intro e mem
  obtain ⟨type, -, inside⟩ := List.mem_flatMap.mp mem
  exact listeners type e inside

/-- The master thread hands the context to `SSL_new`, and that is all. -/
theorem contextUses_polls {srv : Server} {events : List Event} {calls : List Call}
    (polls : Polls srv events calls) (steps : ∀ e ∈ events, StepCall srv e) :
    ∀ u ∈ contextUses calls, ∃ ctx, srv.sslctx = some ctx ∧ u = .use ctx := by
  induction polls with
  | nil => simp [contextUses]
  | accept _ _ _ _ ih => exact ih steps
  | @event e events calls _ ih =>
    obtain ⟨here, others⟩ := List.forall_mem_cons.mp steps
    intro u mem
    obtain first | rest := List.mem_append.mp (show u ∈ Call.contextUses (.event e) ++ _ from mem)
    · cases here with
      | sslNew ssl =>
        obtain ⟨ctx, given, rfl⟩ := List.mem_map.mp first
        exact ⟨ctx, Option.mem_toList.mp given, rfl⟩
      | within conn e within =>
        cases e with
        | sslNew => cases within
        | _ => cases first
      | _ => cases first
    · exact ih others u rest

theorem onNullContext_listeners {calls : ConnectionType → List Event}
    (listeners : ∀ type, ∀ e ∈ calls type, ListenerCall e) :
    ∀ call ∈ (services.flatMap calls).map Call.event, call.onNullContext = false := by
  intro call mem
  obtain ⟨e, inside, rfl⟩ := List.mem_map.mp mem
  obtain ⟨type, -, inside⟩ := List.mem_flatMap.mp inside
  cases listeners type e inside <;> rfl

/-- The loop gives `SSL_new` the context of the server. -/
theorem onNullContext_polls {srv : Server} {ctx : SslCtx} (loaded : srv.sslctx = some ctx)
    {events : List Event} {calls : List Call} (polls : Polls srv events calls)
    (steps : ∀ e ∈ events, StepCall srv e) : ∀ call ∈ calls, call.onNullContext = false := by
  induction polls with
  | nil => simp
  | accept _ _ _ _ ih => exact List.forall_mem_cons.mpr ⟨rfl, ih steps⟩
  | @event e events calls _ ih =>
    obtain ⟨here, others⟩ := List.forall_mem_cons.mp steps
    refine List.forall_mem_cons.mpr ⟨?_, ih others⟩
    cases here with
    | sslNew ssl => simp [Call.onNullContext, loaded]
    | within conn e within =>
      cases e with
      | sslNew => cases within
      | _ => rfl
    | _ => rfl

theorem sole_startupCalls (s : StartTurn) : Sole (contextUses (startupCalls s)) (loadSslctx s) := by
  rw [startupCalls, contextUses_append, contextUses_services (listenerCall_startCalls s),
    List.append_nil]
  exact sole_loadCalls s

theorem sslctx_startServer {s : StartTurn} {srv : Server} (started : startServer s = some srv) :
    srv.sslctx = loadSslctx s := by
  simp only [startServer, Option.bind_eq_bind, Option.bind_eq_some_iff] at started
  obtain ⟨domain, -, started⟩ := started
  split at started
  · cases started
    rfl
  · cases started

/-- The ways `main` ends, with its calls. -/
theorem main_cases (s : StartTurn) (created : Int) (passes : List LoopTurn) :
    let ended := main s created passes
    (ended.exit = .returned 1 ∧ ended.calls = [] ∧ ended.queue = connQueueInit) ∨
    (ended.exit = .aborted ∧ ended.calls = startupCalls s ∧ ended.queue = connQueueInit) ∨
    ∃ srv, startServer s = some srv ∧ ended.exit = .returned 0 ∧
      ended.queue = (startMasterService srv passes).1 ∧
      ended.calls = startupCalls s ++ (startMasterService srv passes).2 ++ shutdownCalls srv := by
  unfold main
  split
  · exact Or.inl ⟨rfl, rfl, rfl⟩
  · split
    · exact Or.inr (Or.inl ⟨rfl, rfl, rfl⟩)
    · split
      · exact Or.inr (Or.inl ⟨rfl, rfl, rfl⟩)
      · exact Or.inr (Or.inr ⟨_, ‹_›, rfl, rfl, rfl⟩)

/-- With a context loaded no call of a whole run is given a null one. -/
theorem onNullContext_main {s : StartTurn} {ctx : SslCtx} (loaded : loadSslctx s = some ctx)
    (created : Int) (passes : List LoopTurn) :
    ∀ call ∈ (main s created passes).calls, call.onNullContext = false := by
  have starting : ∀ call ∈ startupCalls s, call.onNullContext = false :=
    List.forall_mem_append.mpr
      ⟨onNullContext_loadCalls loaded, onNullContext_listeners (listenerCall_startCalls s)⟩
  obtain ⟨-, calls, -⟩ | ⟨-, calls, -⟩ | ⟨srv, started, -, -, calls⟩ := main_cases s created passes
  · simp [calls]
  · rw [calls]
    exact starting
  · have same : srv.sslctx = some ctx := (sslctx_startServer started).trans loaded
    have stretch := stretch_masterPasses srv passes connQueueInit
    rw [calls, List.forall_mem_append, List.forall_mem_append, shutdownCalls,
      List.forall_mem_append]
    refine ⟨⟨starting, ?_⟩, onNullContext_listeners (listenerCall_stopCalls srv), ?_⟩
    · exact onNullContext_polls same stretch.polls (stepCall_run _ (Ring.wf_cleared _))
    · simp [Call.onNullContext, same]

/-- **The TLS context is freed once and not used behind that**, whatever the outcomes of the
    loads, of the start functions and of every call of the master thread: in every run of
    `main` each call that is given a context finds it made and not freed, and a run that
    returns has freed it.  If start-up is left with the context, no call is given a null
    one. -/
theorem sslctx_freed_once (s : StartTurn) (created : Int) (passes : List LoopTurn) :
    let ended := main s created passes
    Safe ∅ (contextUses ended.calls) ∧
      (∀ status, ended.exit = .returned status → heldAfter ∅ (contextUses ended.calls) = ∅) ∧
      (loadSslctx s ≠ none → ∀ call ∈ ended.calls, call.onNullContext = false) := by
  intro ended
  have given : loadSslctx s ≠ none → ∀ call ∈ ended.calls, call.onNullContext = false := by
    intro loaded
    obtain ⟨ctx, loaded⟩ := Option.ne_none_iff_exists'.mp loaded
    exact onNullContext_main loaded created passes
  refine and_assoc.mp ⟨?_, given⟩
  obtain ⟨-, calls, -⟩ | ⟨exit, calls, -⟩ | ⟨srv, started, -, -, calls⟩ := main_cases s created passes
  · -- no mail domain
    rw [show ended.calls = _ from calls]
    exact ⟨trivial, fun _ _ => rfl⟩
  · rw [show ended.calls = _ from calls, show ended.exit = _ from exit]
    exact ⟨(sole_startupCalls s).safe, fun _ returned => by cases returned⟩
  · -- made while loading, used by the loop, freed at the end
    have loaded := sole_startupCalls s
    rw [← sslctx_startServer started] at loaded
    have stretch := stretch_masterPasses srv passes connQueueInit
    have served := loaded.usedBy
      (contextUses_polls stretch.polls (stepCall_run _ (Ring.wf_cleared _)))
    have freed : contextUses (shutdownCalls srv) = srv.sslctx.toList.map .release := by
      rw [shutdownCalls, contextUses_append, contextUses_services (listenerCall_stopCalls srv)]
      exact List.append_nil _
    have last := served.release
    rw [show ended.calls = _ from calls, contextUses_append, contextUses_append, freed]
    exact ⟨last.safe, fun _ _ => last.empty⟩

/-! ## Descriptors -/

def Call.bind (bound : Bindings) : Call → Bindings
  | .event e => e.bind bound
  | _ => bound

/-- An `accept` uses its listener.  One on a listener that was not started is on -1, which is
    no descriptor, and uses none. -/
def Call.descriptorUses (bound : Bindings) : Call → List (Use Fd)
  | .accept listener => (opened listener).map .use
  | .event (.socket fd) => [.acquire fd]
  | .event e => e.socketUses bound
  | _ => []

def callBindings (bound : Bindings) (calls : List Call) : Bindings := calls.foldl Call.bind bound

def programUses (bound : Bindings) : List Call → List (Use Fd)
  | [] => []
  | call :: calls => call.descriptorUses bound ++ programUses (call.bind bound) calls

def Call.objectUses : Call → List (Use Ssl)
  | .event e => e.objectUses
  | _ => []

/-- The SSL objects the program makes and frees. -/
def programObjects (calls : List Call) : List (Use Ssl) := calls.flatMap Call.objectUses

theorem programUses_append (bound : Bindings) (calls calls' : List Call) :
    programUses bound (calls ++ calls') =
      programUses bound calls ++ programUses (callBindings bound calls) calls' := by
  induction calls generalizing bound with
  | nil => rfl
  | cons call calls ih => simp only [List.cons_append, programUses, ih, List.append_assoc]; rfl

theorem programObjects_append (calls calls' : List Call) :
    programObjects (calls ++ calls') = programObjects calls ++ programObjects calls' :=
  List.flatMap_append

/-- The calls on the TLS context touch no descriptor. -/
def Call.OnContext : Call → Prop
  | .accept _ => False
  | .event _ => False
  | _ => True

theorem onContext_loadCalls (s : StartTurn) : ∀ call ∈ loadCalls s, call.OnContext := by
  unfold loadCalls
  dsimp only
  split <;> split <;> simp [Call.OnContext, or_imp, forall_and]

theorem programUses_onContext {calls : List Call} (context : ∀ call ∈ calls, call.OnContext)
    (bound : Bindings) :
    programUses bound calls = [] ∧ callBindings bound calls = bound ∧ programObjects calls = [] := by
  induction calls with
  | nil => exact ⟨rfl, rfl, rfl⟩
  | cons call calls ih =>
    obtain ⟨here, others⟩ := List.forall_mem_cons.mp context
    cases call with
    | accept | event => cases here
    | _ => exact ih others

theorem programUses_listeners {events : List Event} (listeners : ∀ e ∈ events, ListenerCall e)
    (bound : Bindings) :
    programUses bound (events.map .event) = descriptorUses events ∧
      callBindings bound (events.map .event) = bound ∧
      programObjects (events.map .event) = [] := by
  induction events with
  | nil => exact ⟨rfl, rfl, rfl⟩
  | cons e events ih =>
    obtain ⟨here, others⟩ := List.forall_mem_cons.mp listeners
    obtain ⟨uses, binds, objects⟩ := ih others
    cases here with
    | socket fd => exact ⟨congrArg (List.cons (Use.acquire fd)) uses, binds, objects⟩
    | close fd => exact ⟨congrArg (List.cons (Use.release fd)) uses, binds, objects⟩

/-- The descriptors on which the services listen. -/
def Server.listeners (srv : Server) : List Fd :=
  services.flatMap fun type => (srv.contexts.listen type).sockets

theorem context_eq_listen (srv : Server) (type : ConnectionType) :
    srv.context type = srv.contexts.listen type := by
  cases type <;> rfl

theorem mem_services (type : ConnectionType) : type ∈ services := by
  cases type <;> simp [services]

theorem mem_listeners {srv : Server} {type : ConnectionType} {listener fd : Fd}
    (its : listener = (srv.context type).socket4 ∨ listener = (srv.context type).socket6)
    (mem : fd ∈ opened listener) : fd ∈ srv.listeners := by
  refine List.mem_flatMap.mpr ⟨type, mem_services type, ?_⟩
  rw [← context_eq_listen, ListenContext.sockets, List.mem_append]
  rcases its with rfl | rfl
  · exact Or.inl mem
  · exact Or.inr mem

/-- Between the uses of the connections stand uses of the listeners. -/
theorem Polls.framed {srv : Server} {events : List Event} {calls : List Call}
    (polls : Polls srv events calls) (steps : ∀ e ∈ events, StepCall srv e) (bound : Bindings) :
    Framed {fd | fd ∈ srv.listeners} (socketUses bound events) (programUses bound calls) ∧
      callBindings bound calls = bindings bound events ∧
      programObjects calls = events.flatMap Event.objectUses := by
  induction polls generalizing bound with
  | nil => exact ⟨.nil, rfl, rfl⟩
  | @event e events calls _ ih =>
    obtain ⟨here, others⟩ := List.forall_mem_cons.mp steps
    obtain ⟨framed, binds, objects⟩ := ih others (e.bind bound)
    -- the loop opens no listener
    have same : Call.descriptorUses bound (.event e) = e.socketUses bound := by
      cases here with
      | within conn e within =>
        cases e with
        | socket => cases within
        | _ => rfl
      | _ => rfl
    refine ⟨?_, binds, congrArg (e.objectUses ++ ·) objects⟩
    rw [programUses, same]
    exact (framed_refl _ _).append framed
  | @accept type listener events calls its _ ih =>
    obtain ⟨framed, binds, objects⟩ := ih steps bound
    refine ⟨?_, binds, objects⟩
    have inside : ∀ fd ∈ opened listener, fd ∈ srv.listeners := fun fd => mem_listeners its
    by_cases none : listener = -1
    · simpa [programUses, Call.descriptorUses, Call.bind, opened, none] using framed
    · have one : opened listener = [listener] := if_pos none
      rw [one] at inside
      rw [programUses, Call.descriptorUses, one]
      exact .other listener (inside listener List.mem_cons_self) framed

/-! ## What the kernel gives out -/

/-- A step first opens and then closes: what it acquires is acquired before it releases
    anything. -/
structure OpensFirst (events : List Event) : Prop where
  split : ∃ first second, events = first ++ second ∧
    (∀ e ∈ first, (∀ fd, e ≠ .close fd) ∧ ∀ ssl, e ≠ .sslFree ssl) ∧
    ∀ e ∈ second, (∀ fd, e ≠ .accept fd) ∧ ∀ ctx ssl, e ≠ .sslNew ctx ssl

theorem opensFirst_handler {srv : Server} (t : Turn) (conn : Connection) :
    ∀ e ∈ (connectionHandler srv.toGlobals t conn).events,
      (∀ fd, e ≠ .close fd) ∧ ∀ ssl, e ≠ .sslFree ssl := by
  have within : ∀ e : Event, e.Within conn → (∀ fd, e ≠ .close fd) ∧ ∀ ssl, e ≠ .sslFree ssl := by
    intro e within
    cases e with
    | close | sslFree => cases within
    | _ => simp
  cases (footprint_connectionHandler srv.toGlobals t conn).tls with
  | inl keeps => exact fun e mem => within e (keeps.within e mem)
  | inr upgrades =>
    obtain ⟨before, calls, -, early⟩ := upgrades.calls
    rw [calls]
    intro e mem
    obtain first | last := List.mem_append.mp mem
    · exact within e (early e first)
    · rw [List.mem_pair] at last
      rcases last with rfl | rfl <;> simp

theorem opensFirst_step {srv : Server} {held held' : List Connection} {input : MasterInput}
    {events : List Event} (moves : MasterStep srv held input held' events) : OpensFirst events := by
  have opens : ∀ (a : AcceptTurn) (type : ConnectionType) (strat : SslStrategy),
      ∀ e ∈ .accept a.ret :: (newConnection srv.toGlobals a type strat).2,
        (∀ fd, e ≠ .close fd) ∧ ∀ ssl, e ≠ .sslFree ssl := by
    intro a type strat
    rw [events_newConnection]
    split <;> simp
  have deinits : ∀ conn, ∀ e ∈ connectionDeinit conn,
      (∀ fd, e ≠ .accept fd) ∧ ∀ ctx ssl, e ≠ .sslNew ctx ssl := by
    intro conn
    simp [connectionDeinit]
  cases moves with
  | quiet | idle => exact ⟨[], [], rfl, by simp, by simp⟩
  | rejected type a => exact ⟨_, _, rfl, opens a type _, deinits _⟩
  | accepted type a => exact ⟨_, [], (List.append_nil _).symm, opens a type _, by simp⟩
  | served p conn =>
    refine ⟨_, _, rfl, opensFirst_handler p.turn conn, ?_⟩
    refine List.forall_mem_cons.mpr ⟨by simp, ?_⟩
    generalize (connectionHandler srv.toGlobals p.turn conn).result = result
    cases result with
    | «continue» => simp
    | reset => simp [resetConnection]
    | done | error => exact deinits _

theorem release_notMem_socketUses {events : List Event} (keeps : ∀ e ∈ events, ∀ fd, e ≠ .close fd)
    (bound : Bindings) (fd : Fd) : .release fd ∉ socketUses bound events := by
  induction events generalizing bound with
  | nil => simp [socketUses]
  | cons e events ih =>
    obtain ⟨here, others⟩ := List.forall_mem_cons.mp keeps
    rw [socketUses, List.mem_append, not_or]
    refine ⟨?_, ih others _⟩
    cases e with
    | close fd' => exact absurd rfl (here fd')
    | _ => simp [Event.socketUses, useThrough]

theorem release_notMem_objectUses {events : List Event}
    (keeps : ∀ e ∈ events, ∀ ssl, e ≠ .sslFree ssl) (ssl : Ssl) :
    .release ssl ∉ events.flatMap Event.objectUses := by
  intro mem
  obtain ⟨e, inside, frees⟩ := List.mem_flatMap.mp mem
  have other := keeps e inside
  cases e with
  | sslFree object => exact other object rfl
  | sslNew ctx object => cases object <;> simp [Event.objectUses] at frees
  | _ => simp [Event.objectUses] at frees

/-- What the kernel and the library promise of the whole trace holds of each step. -/
theorem OpensFirst.fresh {trace events : List Event} (opens : OpensFirst events)
    (sockets : AcquiresFresh (openSockets trace) (socketUses (bindings unbound trace) events))
    (objects : AcquiresFresh (liveObjects trace) (events.flatMap Event.objectUses)) :
    ∀ e ∈ events, e.Fresh trace := by
  obtain ⟨first, second, rfl, keeps, closes⟩ := opens
  intro e mem
  obtain early | late := List.mem_append.mp mem
  · -- in front of it nothing was given back, so it is new since the step began
    obtain ⟨before, after, rfl⟩ := List.append_of_mem early
    have quiet := fun e' mem' => keeps e' (List.mem_append_left _ mem')
    rw [List.append_assoc, List.cons_append] at sockets objects
    cases e with
    | accept fd =>
      rw [socketUses_append] at sockets
      exact AcquiresFresh.notMem sockets
        (release_notMem_socketUses (fun e' mem' => (quiet e' mem').1) _)
    | sslNew ctx ssl =>
      cases ssl with
      | none => exact trivial
      | some object =>
        rw [List.flatMap_append] at objects
        exact AcquiresFresh.notMem objects
          (release_notMem_objectUses fun e' mem' => (quiet e' mem').2)
    | _ => exact trivial
  · obtain ⟨notAccept, notNew⟩ := closes e late
    cases e with
    | accept fd => exact absurd rfl (notAccept fd)
    | sslNew ctx ssl => exact absurd rfl (notNew ctx ssl)
    | _ => exact trivial

theorem calls_trace (srv : Server) (h : MasterHistory) (queue : ConnectionQueue)
    (inputs : List MasterInput) :
    calls ((master srv).trace h queue inputs).1 =
        calls h ++ ((master srv).run queue inputs).1.flatten ∧
      ((master srv).trace h queue inputs).2 = ((master srv).run queue inputs).2 := by
  induction inputs generalizing h queue with
  | nil => exact ⟨(List.append_nil _).symm, rfl⟩
  | cons input inputs ih =>
    obtain ⟨events, last⟩ := ih (⟨queue, input, ((master srv).step queue input).2⟩ :: h)
      ((master srv).step queue input).1
    refine ⟨?_, last⟩
    rw [Machine.trace, events]
    simp [calls, Machine.run]

/-- Steps whose acquires are fresh in the whole run are sound at their places. -/
theorem admits_of_acquiresFresh {srv : Server} {inputs : List MasterInput} {h : MasterHistory}
    {queue : ConnectionQueue} (wf : queue.Wf) (ok : ∀ input ∈ inputs, input.MutexOk)
    (clean : ∀ input ∈ inputs, cleanRecord srv input)
    (sockets : AcquiresFresh (openSockets (calls h))
      (socketUses (bindings unbound (calls h)) ((master srv).run queue inputs).1.flatten))
    (objects : AcquiresFresh (liveObjects (calls h))
      (((master srv).run queue inputs).1.flatten.flatMap Event.objectUses)) :
    (master srv).Admits (soundAndClean srv) h queue inputs := by
  induction inputs generalizing h queue with
  | nil => exact trivial
  | cons input inputs ih =>
    obtain ⟨okHere, okLater⟩ := List.forall_mem_cons.mp ok
    obtain ⟨cleanHere, cleanLater⟩ := List.forall_mem_cons.mp clean
    rw [Machine.run, List.flatten_cons, socketUses_append, acquiresFresh_append] at sockets
    rw [Machine.run, List.flatten_cons, List.flatMap_append, acquiresFresh_append] at objects
    have opens := opensFirst_step (masterStep_moves srv wf okHere)
    refine ⟨⟨⟨okHere, opens.fresh sockets.1 objects.1⟩, cleanHere⟩, ?_⟩
    refine ih (wf_masterStep srv wf input) okLater cleanLater ?_ ?_
    · rw [calls, openSockets_append, bindings_append]
      exact sockets.2
    · rw [calls, liveObjects_append]
      exact objects.2

/-! ## The owners together -/

/-- The books of each service at start-up: what it is left with is what its context says, if
    there is a TLS context. -/
theorem startCalls_balances (s : StartTurn) (type : ConnectionType) :
    ∃ owned, Balances (descriptorUses (startCalls s type)) owned ∧
      ∀ srv, startServer s = some srv → loadSslctx s ≠ none →
        owned = (srv.contexts.listen type).sockets := by
  have idle : (Contexts.zero.listen type).active = false := by cases type <;> rfl
  have calls : startCalls s type =
      (Contexts.zero.start (loadSslctx s) (s.socket4 type) (s.socket6 type) type).2.2 := by
    cases type <;> rfl
  obtain ⟨why, -, quiet, -⟩ | ⟨-, -, runs, events⟩ :=
    Contexts.zero.start_cases (loadSslctx s) (s.socket4 type) (s.socket6 type) type
  · refine ⟨[], ?_, ?_⟩
    · rw [calls, quiet]
      exact balances_nil
    · -- a service that was never started is idle, and the guards ask for the context
      intro srv _ loaded
      obtain active | missing := why
      · rw [active] at idle
        cases idle
      · exact absurd missing loaded
  · refine ⟨(startListeners (Contexts.zero.listen type) (s.socket4 type) (s.socket6 type)).2.1.sockets,
      ?_, ?_⟩
    · rw [calls, events]
      exact (startListeners_balances balances_nil idle (s.socket4 type) (s.socket6 type)).1
    · intro srv started _
      rw [(startServer_contexts started type).2, runs]

theorem descriptorUses_flatMap (types : List ConnectionType) (calls : ConnectionType → List Event) :
    descriptorUses (types.flatMap calls) = types.flatMap fun type => descriptorUses (calls type) := by
  induction types with
  | nil => rfl
  | cons type types ih => simp only [List.flatMap_cons, descriptorUses_append, ih]

theorem programUses_startupCalls (s : StartTurn) :
    programUses unbound (startupCalls s) =
        (services.flatMap fun type => descriptorUses (startCalls s type)) ∧
      callBindings unbound (startupCalls s) = unbound ∧ programObjects (startupCalls s) = [] := by
  have listening : ∀ e ∈ services.flatMap (startCalls s), ListenerCall e := by
    intro e mem
    obtain ⟨type, -, inside⟩ := List.mem_flatMap.mp mem
    exact listenerCall_startCalls s type e inside
  obtain ⟨loads, keeps, noObjects⟩ := programUses_onContext (onContext_loadCalls s) unbound
  obtain ⟨opens, binds, objects⟩ := programUses_listeners listening unbound
  refine ⟨?_, ?_, ?_⟩
  · rw [startupCalls, programUses_append, loads, keeps, List.nil_append, opens,
      descriptorUses_flatMap]
  · rw [startupCalls, callBindings, List.foldl_append]
    exact (congrArg (callBindings · _) keeps).trans binds
  · rw [startupCalls, programObjects_append, noObjects, objects]
    rfl

theorem programUses_shutdownCalls (srv : Server) (bound : Bindings) :
    programUses bound (shutdownCalls srv) = srv.listeners.map .release := by
  have stops : services.flatMap (stopCalls srv) = srv.listeners.map .close := by
    rw [Server.listeners, List.map_flatMap]
    exact congrArg services.flatMap (funext (stopCalls_eq srv))
  have listening : ∀ e ∈ services.flatMap (stopCalls srv), ListenerCall e := by
    intro e mem
    obtain ⟨type, -, inside⟩ := List.mem_flatMap.mp mem
    exact listenerCall_stopCalls srv type e inside
  obtain ⟨closes, -, -⟩ := programUses_listeners listening bound
  rw [shutdownCalls, programUses_append, closes, stops, descriptorUses_close]
  exact List.append_nil _

/-- What the law of descriptors asks of the outside: working mutex calls, clean records for
    connections without implicit TLS, and that nothing is given out that is in use. -/
structure SoundProgram (inherited : Set Fd) (s : StartTurn) (created : Int)
    (passes : List LoopTurn) : Prop where
  mutexOk : ∀ input ∈ passes.flatMap LoopTurn.inputs, input.MutexOk
  clean : ∀ srv, startServer s = some srv →
    ∀ input ∈ passes.flatMap LoopTurn.inputs, cleanRecord srv input
  sockets : AcquiresFresh inherited (programUses unbound (main s created passes).calls)
  objects : AcquiresFresh ∅ (programObjects (main s created passes).calls)

/-- The connections own what they accept, beside whatever else is open. -/
theorem startMasterService_safe {srv : Server} {passes : List LoopTurn} {frame : Set Fd}
    (listening : ∀ fd ∈ srv.listeners, fd ∈ frame)
    (ok : ∀ input ∈ passes.flatMap LoopTurn.inputs, input.MutexOk)
    (clean : ∀ input ∈ passes.flatMap LoopTurn.inputs, cleanRecord srv input)
    (sockets : AcquiresFresh frame (programUses unbound (startMasterService srv passes).2))
    (objects : AcquiresFresh ∅ (programObjects (startMasterService srv passes).2)) :
    let clients := (startMasterService srv passes).1.contents.map Connection.clientsocket
    Safe frame (programUses unbound (startMasterService srv passes).2) ∧
      heldAfter frame (programUses unbound (startMasterService srv passes).2) =
        {fd | fd ∈ clients} ∪ frame ∧
      clients.Nodup ∧ ∀ fd ∈ clients, fd ∉ frame := by
  intro clients
  have wf : connQueueInit.Wf := Ring.wf_cleared _
  have stretch := stretch_masterPasses srv passes connQueueInit
  obtain ⟨framed, -, sameObjects⟩ := stretch.polls.framed (stepCall_run _ wf) unbound
  have own := framed.acquiresFresh (sockets.anti (Set.empty_subset frame))
  have admits : (master srv).Admits (soundAndClean srv) [] connQueueInit
      (passes.flatMap LoopTurn.inputs) :=
    admits_of_acquiresFresh wf ok clean own (sameObjects ▸ objects)
  have idle : (master srv).Reaches (· = connQueueInit) (soundAndClean srv) [] connQueueInit :=
    .start rfl
  obtain ⟨-, conserved⟩ := conserved_run (idle.trace _ admits)
  obtain ⟨events, last⟩ := calls_trace srv [] connQueueInit (passes.flatMap LoopTurn.inputs)
  rw [events, last, ← stretch.leaves] at conserved
  -- alone they are safe, and the listeners' uses stand in between
  have inside : AcquiresFresh (∅ ∪ frame) (programUses unbound (startMasterService srv passes).2) := by
    rwa [Set.empty_union]
  obtain ⟨safe, after, apart⟩ := Safe.frame (framed.mono listening) conserved.safe inside
    (fun _ none => none.elim)
  rw [Set.empty_union] at safe after
  have held : heldAfter ∅ (socketUses unbound ([] ++ ((master srv).run connQueueInit
      (passes.flatMap LoopTurn.inputs)).1.flatten)) = {fd | fd ∈ clients} := by
    ext fd
    have opened := conserved.opened fd
    rw [List.map_map] at opened
    exact opened
  refine ⟨safe, ?_, ?_, ?_⟩
  · rw [← held]
    exact after
  · have single := conserved.single
    rw [List.map_map] at single
    exact single
  · intro fd mem
    refine apart fd ?_
    have open' : fd ∈ {fd | fd ∈ clients} := mem
    rw [← held] at open'
    exact open'

/-- Without a TLS context the guarded services are left with the zeros of static storage. -/
theorem not_nodup_listeners {s : StartTurn} {srv : Server} (started : startServer s = some srv)
    (missing : loadSslctx s = none) : ¬ srv.listeners.Nodup := by
  intro single
  have part := (List.nodup_flatMap.mp single).1 .smtps (mem_services _)
  rw [(startServer_contexts started .smtps).2, missing] at part
  have zeros : ([0, 0] : List Fd).Nodup := part
  simp at zeros

/-- A run that gets to its shutdown with a TLS context, from what start-up left to what it
    leaves itself. -/
theorem returned_descriptors {inherited : Set Fd} {srv : Server} {passes : List LoopTurn}
    (single : srv.listeners.Nodup) (apart : ∀ fd ∈ srv.listeners, fd ∉ inherited)
    (ok : ∀ input ∈ passes.flatMap LoopTurn.inputs, input.MutexOk)
    (clean : ∀ input ∈ passes.flatMap LoopTurn.inputs, cleanRecord srv input)
    (sockets : AcquiresFresh ({fd | fd ∈ srv.listeners} ∪ inherited)
      (programUses unbound (startMasterService srv passes).2))
    (objects : AcquiresFresh ∅ (programObjects (startMasterService srv passes).2)) :
    let clients := (startMasterService srv passes).1.contents.map Connection.clientsocket
    let uses := programUses unbound (startMasterService srv passes).2 ++
      srv.listeners.map .release
    Safe ({fd | fd ∈ srv.listeners} ∪ inherited) uses ∧
      heldAfter ({fd | fd ∈ srv.listeners} ∪ inherited) uses = {fd | fd ∈ clients} ∪ inherited ∧
      clients.Nodup ∧ ∀ fd ∈ clients, fd ∉ inherited := by
  intro clients uses
  have listening : ∀ fd ∈ srv.listeners, fd ∈ ({fd | fd ∈ srv.listeners} ∪ inherited : Set Fd) :=
    fun fd mem => Or.inl mem
  obtain ⟨safe, after, singles, apart'⟩ := startMasterService_safe listening ok clean sockets objects
  -- the listeners are open behind the loop, beside the clients
  have still : ∀ fd ∈ srv.listeners,
      fd ∈ ({fd | fd ∈ clients} ∪ ({fd | fd ∈ srv.listeners} ∪ inherited) : Set Fd) :=
    fun fd mem => Or.inr (Or.inl mem)
  obtain ⟨closes, leaves⟩ := safe_releaseAll single still
  refine ⟨?_, ?_, singles, fun fd mem inside => apart' fd mem (Or.inr inside)⟩
  · rw [safe_append, after]
    exact ⟨safe, closes⟩
  · rw [heldAfter_append, after, leaves]
    ext fd
    have free := apart' fd
    have foreign := apart fd
    simp only [Set.mem_sdiff, Set.mem_union, Set.mem_ofPred_eq] at free ⊢
    tauto

/-- **Descriptors over a whole run of `main`.**  Let the mutex calls work, the records of
    connections without implicit TLS start clean, and the kernel and the TLS library give
    out nothing that is in use.  Then the run uses and closes only descriptors that are
    open, listeners included, if and only if it does not get to a shutdown without a TLS
    context; and with a context, a run that returns has closed everything it opened but the
    sockets of the connections that still wait. -/
theorem program_descriptors {inherited : Set Fd} {s : StartTurn} {created : Int}
    {passes : List LoopTurn} (sound : SoundProgram inherited s created passes) :
    let ended := main s created passes
    let clients := ended.queue.contents.map Connection.clientsocket
    (Safe inherited (programUses unbound ended.calls) ↔
      (ended.exit = .returned 0 → loadSslctx s ≠ none)) ∧
    (loadSslctx s ≠ none → ∀ status, ended.exit = .returned status →
      heldAfter inherited (programUses unbound ended.calls) = {fd | fd ∈ clients} ∪ inherited ∧
        clients.Nodup ∧ ∀ fd ∈ clients, fd ∉ inherited) := by
  intro ended clients
  obtain ⟨ok, clean, sockets, objects⟩ := sound
  choose owned balances contexts using startCalls_balances s
  obtain ⟨opens, unboundYet, noObjects⟩ := programUses_startupCalls s
  obtain ⟨exit, calls, queue⟩ | ⟨exit, calls, -⟩ | ⟨srv, started, exit, queue, calls⟩ :=
    main_cases s created passes
  · -- no mail domain: nothing was called
    have none : clients = [] := by
      simp only [clients, ended, queue]
      rfl
    rw [show ended.calls = _ from calls, show ended.exit = _ from exit, none]
    refine ⟨⟨fun _ => by simp, fun _ => trivial⟩, fun _ _ _ => ?_⟩
    exact ⟨by simp [programUses], List.nodup_nil, by simp⟩
  · -- an abort behind the start functions
    rw [calls, opens] at sockets
    rw [show ended.calls = _ from calls, show ended.exit = _ from exit, opens]
    refine ⟨⟨fun _ => by simp, fun _ => ?_⟩, fun _ status returned => by cases returned⟩
    exact (safe_blocks services _ owned (fun type _ => balances type) sockets).1
  · rw [calls, programUses_append, programUses_append, unboundYet, opens, acquiresFresh_append,
      acquiresFresh_append] at sockets
    obtain ⟨⟨early, served⟩, -⟩ := sockets
    rw [calls, programObjects_append, programObjects_append, noObjects, List.nil_append,
      acquiresFresh_append] at objects
    obtain ⟨starts, held, single, apart⟩ :=
      safe_blocks services _ owned (fun type _ => balances type) early
    rw [show ended.calls = _ from calls, show ended.exit = _ from exit, programUses_append,
      programUses_append, unboundYet, opens, programUses_shutdownCalls]
    by_cases missing : loadSslctx s = none
    · -- the contexts that no service filled are closed all the same
      refine ⟨⟨?_, fun loaded => absurd missing (loaded rfl)⟩, fun loaded => absurd missing loaded⟩
      intro safe _
      rw [safe_append] at safe
      exact absurd safe.2.nodup_of_releases (not_nodup_listeners started missing)
    · have same : services.flatMap owned = srv.listeners :=
        congrArg services.flatMap (funext fun type => contexts type srv started missing)
      rw [same] at held single apart
      rw [held] at served
      have returned := returned_descriptors single apart ok (clean srv started) served objects.1
      obtain ⟨safe, leaves, singles, apart'⟩ := returned
      have these : clients = (startMasterService srv passes).1.contents.map
          Connection.clientsocket := by simp only [clients, ended, queue]
      rw [these, List.append_assoc, safe_append, heldAfter_append, held]
      exact ⟨⟨fun _ _ => missing, fun _ => ⟨starts, safe⟩⟩, fun _ _ _ => ⟨leaves, singles, apart'⟩⟩

/-- What `accept` reports when no client waits. -/
def AcceptTurn.nobody : AcceptTurn :=
  { AcceptTurn.onSocket (-1) Connection.zero with errno := ewouldblock }

/-- One pass of the loop, with at most one new client of SMTP. -/
def LoopTurn.mailey (client : AcceptTurn) (t : Turn) : LoopTurn where
  accept4
    | .smtp => client
    | _ => .nobody
  accept6 := fun _ => .nobody
  process := .serves t

/-- Two clients come, one of them leaves, and the server is stopped. -/
def maileyPasses : List LoopTurn :=
  [.mailey (.onSocket 13 Connection.zero) .silent, .mailey (.onSocket 14 Connection.zero) quitTurn,
   .mailey .nobody .silent]

/-- Standard input, output and error. -/
def standardDescriptors : Set Fd := {fd | fd = 0 ∨ fd = 1 ∨ fd = 2}

instance : DecidablePred (· ∈ standardDescriptors) := fun fd =>
  inferInstanceAs (Decidable (fd = 0 ∨ fd = 1 ∨ fd = 2))

theorem program_descriptors_mailey :
    Safe standardDescriptors (programUses unbound (main (startApart 1 1) 0 maileyPasses).calls) ∧
      heldAfter standardDescriptors
          (programUses unbound (main (startApart 1 1) 0 maileyPasses).calls) =
        {fd | fd ∈ [(14 : Fd)]} ∪ standardDescriptors := by
  have sound : SoundProgram standardDescriptors (startApart 1 1) 0 maileyPasses := by
    refine ⟨by decide, ?_, by decide +kernel, by decide +kernel⟩
    intro srv _
    simp [maileyPasses, LoopTurn.inputs, LoopTurn.mailey, cleanRecord, AcceptTurn.onSocket,
      AcceptTurn.nobody, Connection.zero]
  have loaded : loadSslctx (startApart 1 1) ≠ none := by decide
  have returned : (main (startApart 1 1) 0 maileyPasses).exit = .returned 0 := by decide +kernel
  have clients : (main (startApart 1 1) 0 maileyPasses).queue.contents.map Connection.clientsocket =
      [14] := by decide +kernel
  have law := program_descriptors sound
  -- the run is not to be evaluated again
  generalize main (startApart 1 1) 0 maileyPasses = ended at law returned clients ⊢
  obtain ⟨⟨-, safe⟩, leaves⟩ := law
  obtain ⟨held, -, -⟩ := leaves loaded 0 returned
  rw [clients] at held
  exact ⟨safe fun _ => loaded, held⟩

end Femail
