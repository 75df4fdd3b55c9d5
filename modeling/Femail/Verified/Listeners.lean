import Femail.Foundation.Lifecycle
import Femail.Verified.Availability

/-! # Listening sockets

Each service owns the descriptors in its context, where -1 stands for none.  The law is
`Balances` over the calls of one service: what `socket` opened and nothing has closed is
what the context holds.  It is kept by every start and stop from the state the `init_*`
functions leave.

`main` calls none of these, so a service that returns before it touches its sockets is
left with the zeros of static storage, and its stop function closes descriptor 0.
-/

namespace Femail

open Foundation

def Event.descriptorUses : Event → List (Use Fd)
  | .socket fd => [.acquire fd]
  | .close fd => [.release fd]
  | _ => []

def descriptorUses (calls : List Event) : List (Use Fd) := calls.flatMap Event.descriptorUses

@[simp] theorem descriptorUses_nil : descriptorUses [] = [] := rfl

@[simp] theorem descriptorUses_append (calls events : List Event) :
    descriptorUses (calls ++ events) = descriptorUses calls ++ descriptorUses events :=
  List.flatMap_append

/-- The descriptor a field stands for. -/
def opened (fd : Fd) : List Fd := if fd ≠ -1 then [fd] else []

def ListenContext.sockets (ctx : ListenContext) : List Fd := opened ctx.socket4 ++ opened ctx.socket6

/-! ## Starting and stopping -/

section

variable {uses : List (Use Fd)} {owned : List Fd}

/-- What `startSocket` leaves open is the descriptor it keeps, and then it listens. -/
theorem startSocket_balances (balances : Balances uses owned) (t : SocketTurn) :
    let start := startSocket t
    Balances (uses ++ descriptorUses start.2) (opened start.1.1 ++ owned) ∧
      (start.1.2 = true ↔ start.1.1 ≠ -1) := by
  intro start
  -- a failure of `bind` or `listen` closes what was opened
  have closed : Balances (uses ++ [.acquire t.socket, .release t.socket]) owned := by
    have both := (balances.acquire t.socket).release List.mem_cons_self
    rw [List.erase_cons_head, List.append_assoc] at both
    exact both
  unfold start startSocket
  by_cases failed : t.socket = -1
  · rw [if_pos failed]
    exact ⟨by simpa [opened] using balances, by simp⟩
  · rw [if_neg failed]
    by_cases bound : t.bind ≠ 0
    · rw [if_pos bound]
      exact ⟨closed, by simp⟩
    · rw [if_neg bound]
      by_cases listens : t.listen ≠ 0
      · rw [if_pos listens]
        exact ⟨closed, by simp⟩
      · rw [if_neg listens]
        have kept : opened t.socket = [t.socket] := if_pos failed
        refine ⟨?_, by simp [failed]⟩
        rw [kept]
        exact balances.acquire t.socket

/-- A service that is not running has nothing to lose when it starts. -/
theorem startListeners_balances (balances : Balances uses []) {ctx : ListenContext}
    (idle : ctx.active = false) (t4 t6 : SocketTurn) :
    let start := startListeners ctx t4 t6
    Balances (uses ++ descriptorUses start.2.2) start.2.1.sockets ∧
      (start.2.1.active = true ↔ start.2.1.sockets ≠ []) ∧
      (start.1 = 0 ↔ start.2.1.active = true) := by
  intro start
  obtain ⟨first, up4⟩ := startSocket_balances balances t4
  obtain ⟨second, up6⟩ := startSocket_balances first t6
  have active : start.2.1.active = ((startSocket t4).1.2 || (startSocket t6).1.2) := by
    simp [start, startListeners, idle]
  have sockets : start.2.1.sockets =
      opened (startSocket t4).1.1 ++ opened (startSocket t6).1.1 := rfl
  refine ⟨?_, ?_, ?_⟩
  · have calls : start.2.2 = (startSocket t4).2 ++ (startSocket t6).2 := rfl
    rw [calls, sockets, descriptorUses_append, ← List.append_assoc]
    refine second.perm ?_
    rw [List.append_nil]
    exact List.perm_append_comm
  · rw [active, sockets, Bool.or_eq_true, up4, up6]
    simp only [opened]
    split <;> split <;> simp_all
  · have result : start.1 = if start.2.1.active then 0 else 1 := rfl
    rw [result]
    cases start.2.1.active <;> simp

theorem descriptorUses_stopSocket (fd : Fd) :
    (stopSocket fd).1 = -1 ∧ (stopSocket fd).2 = (opened fd).map .close := by
  unfold stopSocket opened
  split
  · exact ⟨rfl, rfl⟩
  · rename_i none
    exact ⟨by simpa using none, rfl⟩

/-- Stopping closes what is open and leaves what `init_*` leaves. -/
theorem stopListeners_eq (ctx : ListenContext) :
    stopListeners ctx = (initListeners, ctx.sockets.map .close) := by
  obtain ⟨none4, close4⟩ := descriptorUses_stopSocket ctx.socket4
  obtain ⟨none6, close6⟩ := descriptorUses_stopSocket ctx.socket6
  simp only [stopListeners, none4, none6, close4, close6, ListenContext.sockets, List.map_append,
    initListeners]

theorem descriptorUses_close (fds : List Fd) : descriptorUses (fds.map .close) = fds.map .release := by
  induction fds with
  | nil => rfl
  | cons fd fds ih => exact congrArg (List.cons (.release fd)) ih

end

/-! ## The five services -/

structure Contexts where
  smtpctx : SmtpContext
  smtpsctx : ListenContext
  starttlsctx : ListenContext
  httpctx : ListenContext
  httpsctx : ListenContext

namespace Contexts

def init : Contexts := ⟨initSmtp, initSmtps, initStarttls, initHttp, initHttps⟩

def listen (contexts : Contexts) : ConnectionType → ListenContext
  | .smtp => contexts.smtpctx.toListenContext
  | .smtps => contexts.smtpsctx
  | .starttls => contexts.starttlsctx
  | .http => contexts.httpctx
  | .https => contexts.httpsctx

/-- The contexts with the one of a service as `init_*` leaves it. -/
def restore (contexts : Contexts) : ConnectionType → Contexts
  | .smtp => { contexts with smtpctx := init.smtpctx }
  | .smtps => { contexts with smtpsctx := init.smtpsctx }
  | .starttls => { contexts with starttlsctx := init.starttlsctx }
  | .http => { contexts with httpctx := init.httpctx }
  | .https => { contexts with httpsctx := init.httpsctx }

def start (contexts : Contexts) (sslctx : Option SslCtx) (t4 t6 : SocketTurn) :
    ConnectionType → Result × Contexts × List Event
  | .smtp =>
    let (result, ctx, events) := startSmtp sslctx contexts.smtpctx t4 t6
    (result, { contexts with smtpctx := ctx }, events)
  | .smtps =>
    let (result, ctx, events) := startSmtps sslctx contexts.smtpsctx t4 t6
    (result, { contexts with smtpsctx := ctx }, events)
  | .starttls =>
    let (result, ctx, events) := startStarttls sslctx contexts.starttlsctx t4 t6
    (result, { contexts with starttlsctx := ctx }, events)
  | .http =>
    let (result, ctx, events) := startHttp contexts.httpctx t4 t6
    (result, { contexts with httpctx := ctx }, events)
  | .https =>
    let (result, ctx, events) := startHttps sslctx contexts.httpsctx t4 t6
    (result, { contexts with httpsctx := ctx }, events)

def stop (contexts : Contexts) : ConnectionType → Contexts × List Event
  | .smtp =>
    let (ctx, events) := stopSmtp contexts.smtpctx
    ({ contexts with smtpctx := ctx }, events)
  | .smtps =>
    let (ctx, events) := stopSmtps contexts.smtpsctx
    ({ contexts with smtpsctx := ctx }, events)
  | .starttls =>
    let (ctx, events) := stopStarttls contexts.starttlsctx
    ({ contexts with starttlsctx := ctx }, events)
  | .http =>
    let (ctx, events) := stopHttp contexts.httpctx
    ({ contexts with httpctx := ctx }, events)
  | .https =>
    let (ctx, events) := stopHttps contexts.httpsctx
    ({ contexts with httpsctx := ctx }, events)

/-- A service that runs, or that misses its TLS context, stays as it is; another goes
    through its two address families. -/
theorem start_cases (contexts : Contexts) (sslctx : Option SslCtx) (t4 t6 : SocketTurn)
    (type : ConnectionType) :
    let next := contexts.start sslctx t4 t6 type
    let ctx := contexts.listen type
    ((ctx.active = true ∨ sslctx = none) ∧
        next.2.1.listen type = ctx ∧ next.2.2 = [] ∧ (next.1 = 0 ↔ ctx.active = true)) ∨
      (ctx.active = false ∧ next.1 = (startListeners ctx t4 t6).1 ∧
        next.2.1.listen type = (startListeners ctx t4 t6).2.1 ∧
        next.2.2 = (startListeners ctx t4 t6).2.2) := by
  have guarded : ∀ ctx : ListenContext,
      ((ctx.active = true ∨ sslctx = none) ∧ (startGuarded sslctx ctx t4 t6).2 = (ctx, []) ∧
        ((startGuarded sslctx ctx t4 t6).1 = 0 ↔ ctx.active = true)) ∨
      (ctx.active = false ∧ startGuarded sslctx ctx t4 t6 = startListeners ctx t4 t6) := by
    intro ctx
    unfold startGuarded
    cases active : ctx.active with
    | true => simp
    | false =>
      by_cases missing : sslctx = none
      · simp [missing]
      · simp [missing]
  intro next ctx
  cases type with
  | smtps | starttls | https =>
    obtain ⟨why, same, result⟩ | ⟨idle, runs⟩ := guarded ctx
    · exact Or.inl ⟨why, congrArg Prod.fst same, congrArg Prod.snd same, result⟩
    · refine Or.inr ⟨idle, ?_, ?_, ?_⟩
      · exact congrArg Prod.fst runs
      · exact congrArg (fun start => start.2.1) runs
      · exact congrArg (fun start => start.2.2) runs
  | smtp =>
    have unfolded : next = contexts.start sslctx t4 t6 .smtp := rfl
    cases active : ctx.active with
    | true =>
      have runs : contexts.smtpctx.active = true := active
      refine Or.inl ?_
      simp [unfolded, start, startSmtp, runs, listen, ctx]
    | false =>
      have idle : contexts.smtpctx.active = false := active
      refine Or.inr ?_
      simp [unfolded, start, startSmtp, idle, listen, ctx]
  | http =>
    have unfolded : next = contexts.start sslctx t4 t6 .http := rfl
    cases active : ctx.active with
    | true =>
      have runs : contexts.httpctx.active = true := active
      refine Or.inl ?_
      simp [unfolded, start, startHttp, runs, listen, ctx]
    | false =>
      have idle : contexts.httpctx.active = false := active
      refine Or.inr ?_
      simp [unfolded, start, startHttp, idle, listen, ctx]

theorem start_frame (contexts : Contexts) (sslctx : Option SslCtx) (t4 t6 : SocketTurn)
    {type other : ConnectionType} (differs : other ≠ type) :
    (contexts.start sslctx t4 t6 type).2.1.listen other = contexts.listen other := by
  cases type <;> cases other <;> first | rfl | exact absurd rfl differs

theorem stop_eq (contexts : Contexts) (type : ConnectionType) :
    contexts.stop type = (contexts.restore type, (contexts.listen type).sockets.map .close) := by
  cases type with
  | smtp => simp [stop, stopSmtp, stopListeners_eq, restore, init, initSmtp, listen]
  | smtps => simp [stop, stopSmtps, stopListeners_eq, restore, init, initSmtps, listen]
  | starttls => simp [stop, stopStarttls, stopListeners_eq, restore, init, initStarttls, listen]
  | http => simp [stop, stopHttp, stopListeners_eq, restore, init, initHttp, listen]
  | https => simp [stop, stopHttps, stopListeners_eq, restore, init, initHttps, listen]

theorem listen_restore (contexts : Contexts) (type other : ConnectionType) :
    (contexts.restore type).listen other =
      if other = type then initListeners else contexts.listen other := by
  cases type <;> cases other <;> rfl

end Contexts

/-! ## Any sequence of starts and stops -/

inductive ListenerOp where
  | start (type : ConnectionType) (sslctx : Option SslCtx) (t4 t6 : SocketTurn)
  | stop (type : ConnectionType)

def ListenerOp.service : ListenerOp → ConnectionType
  | .start type _ _ _ => type
  | .stop type => type

/-- The start and stop functions called in any order; a stop returns nothing. -/
def listeners : Machine Contexts ListenerOp (Option Result × List Event) where
  step
    | contexts, .start type sslctx t4 t6 =>
      let (result, contexts, events) := contexts.start sslctx t4 t6 type
      (contexts, some result, events)
    | contexts, .stop type =>
      let (contexts, events) := contexts.stop type
      (contexts, none, events)

abbrev ListenerHistory := List (Entry Contexts ListenerOp (Option Result × List Event))

/-- The calls of the functions of one service, oldest first. -/
def serviceCalls (type : ConnectionType) : ListenerHistory → List Event
  | [] => []
  | e :: older => serviceCalls type older ++ if e.input.service = type then e.output.2 else []

theorem serviceCalls_cons (type : ConnectionType) (contexts : Contexts) (op : ListenerOp)
    (output : Option Result × List Event) (h : ListenerHistory) :
    serviceCalls type (⟨contexts, op, output⟩ :: h) =
      serviceCalls type h ++ if op.service = type then output.2 else [] := rfl

/-- What `socket` opened and nothing has closed is what the context holds, and the service
    is active if that is something. -/
structure OwnsDescriptors (calls : List Event) (ctx : ListenContext) : Prop where
  balances : Balances (descriptorUses calls) ctx.sockets
  active : ctx.active = true ↔ ctx.sockets ≠ []

theorem ownsDescriptors_init : OwnsDescriptors [] initListeners :=
  ⟨balances_nil, by decide⟩

section

variable {calls : List Event} {contexts : Contexts} {type : ConnectionType}

theorem OwnsDescriptors.start (owns : OwnsDescriptors calls (contexts.listen type))
    (sslctx : Option SslCtx) (t4 t6 : SocketTurn) :
    let next := contexts.start sslctx t4 t6 type
    OwnsDescriptors (calls ++ next.2.2) (next.2.1.listen type) ∧
      (next.1 = 0 ↔ (next.2.1.listen type).active = true) ∧
      (next.2.1.listen type = contexts.listen type ∨ (contexts.listen type).sockets = []) := by
  intro next
  obtain ⟨-, same, quiet, result⟩ | ⟨idle, result, runs, events⟩ :=
    contexts.start_cases sslctx t4 t6 type
  · rw [show next.2.1.listen type = _ from same, show next.2.2 = _ from quiet, List.append_nil]
    exact ⟨owns, result, Or.inl rfl⟩
  · have empty : (contexts.listen type).sockets = [] := by
      by_contra some'
      rw [owns.active.mpr some'] at idle
      cases idle
    have before : Balances (descriptorUses calls) [] := by
      rw [← empty]
      exact owns.balances
    obtain ⟨balances, active, zero⟩ := startListeners_balances before idle t4 t6
    rw [show next.2.1.listen type = _ from runs, show next.2.2 = _ from events,
      show next.1 = _ from result]
    refine ⟨⟨?_, active⟩, zero, Or.inr empty⟩
    rw [descriptorUses_append]
    exact balances

theorem OwnsDescriptors.stop (owns : OwnsDescriptors calls (contexts.listen type)) :
    OwnsDescriptors (calls ++ (contexts.stop type).2) ((contexts.stop type).1.listen type) := by
  rw [contexts.stop_eq type, contexts.listen_restore type type, if_pos rfl]
  refine ⟨?_, ownsDescriptors_init.active⟩
  rw [descriptorUses_append, descriptorUses_close]
  exact owns.balances.releaseAll

end

theorem ownsDescriptors_step {h : ListenerHistory} {contexts : Contexts} (op : ListenerOp)
    (owns : ∀ type, OwnsDescriptors (serviceCalls type h) (contexts.listen type))
    (type : ConnectionType) :
    let next := listeners.step contexts op
    OwnsDescriptors (serviceCalls type (⟨contexts, op, next.2⟩ :: h)) (next.1.listen type) := by
  intro next
  have own := owns type
  rw [serviceCalls_cons]
  by_cases here : op.service = type
  · subst here
    rw [if_pos rfl]
    cases op with
    | start service sslctx t4 t6 => exact (own.start sslctx t4 t6).1
    | stop service => exact own.stop
  · have frame : next.1.listen type = contexts.listen type := by
      cases op with
      | start service sslctx t4 t6 => exact contexts.start_frame sslctx t4 t6 (Ne.symm here)
      | stop service =>
        have differs : type ≠ service := Ne.symm here
        simp [next, listeners, contexts.stop_eq, contexts.listen_restore, differs]
    rw [if_neg here, List.append_nil, frame]
    exact own

/-- A start leaves what is open alone. -/
def KeepsOpen (ctx ctx' : ListenContext) : Prop :=
  (ctx.socket4 ≠ -1 → ctx'.socket4 = ctx.socket4) ∧ (ctx.socket6 ≠ -1 → ctx'.socket6 = ctx.socket6)

theorem keepsOpen_of_empty {ctx : ListenContext} (empty : ctx.sockets = []) (ctx' : ListenContext) :
    KeepsOpen ctx ctx' := by
  obtain ⟨none4, none6⟩ := List.append_eq_nil_iff.mp empty
  simp only [opened] at none4 none6
  refine ⟨?_, ?_⟩
  · intro open4
    rw [if_pos open4] at none4
    cases none4
  · intro open6
    rw [if_pos open6] at none6
    cases none6

/-- **Listener contexts own their descriptors**, after any sequence of starts and stops from
    the `init_*` states.  The next start returns 0 if and only if the service is then
    active and overwrites nothing that is open, and the next stop closes each open
    descriptor once and restores the `init_*` state. -/
theorem listeners_own_descriptors {h : ListenerHistory} {contexts : Contexts}
    (reaches : listeners.Reaches (· = Contexts.init) Machine.anyStep h contexts)
    (type : ConnectionType) :
    OwnsDescriptors (serviceCalls type h) (contexts.listen type) ∧
    (∀ sslctx t4 t6, let next := contexts.start sslctx t4 t6 type
      (next.1 = 0 ↔ (next.2.1.listen type).active = true) ∧
        KeepsOpen (contexts.listen type) (next.2.1.listen type)) ∧
    contexts.stop type = (contexts.restore type, (contexts.listen type).sockets.map .close) := by
  have owns : ∀ type, OwnsDescriptors (serviceCalls type h) (contexts.listen type) := by
    apply Machine.Reaches.invariant (fun h contexts => ∀ type,
      OwnsDescriptors (serviceCalls type h) (contexts.listen type)) _ _ reaches
    · rintro contexts rfl type
      cases type <;> exact ownsDescriptors_init
    · intro h contexts op owns _ type
      exact ownsDescriptors_step op owns type
  refine ⟨owns type, ?_, contexts.stop_eq type⟩
  intro sslctx t4 t6 next
  obtain ⟨-, result, same | empty⟩ := (owns type).start sslctx t4 t6
  · refine ⟨result, ?_⟩
    rw [same]
    exact ⟨fun _ => rfl, fun _ => rfl⟩
  · exact ⟨result, keepsOpen_of_empty empty _⟩

/-- SMTP starts on IPv4 only, starts again, and stops; the TLS services have no context. -/
def listenerOps : List ListenerOp :=
  [.start .smtp none ⟨3, 0, 0⟩ ⟨4, -1, 0⟩, .start .smtp none ⟨4, 0, 0⟩ ⟨5, 0, 0⟩,
   .start .smtps none ⟨4, 0, 0⟩ ⟨5, 0, 0⟩, .stop .smtps, .stop .smtp]

theorem listeners_own_descriptors_smtp :
    let last := listeners.trace [] Contexts.init listenerOps
    serviceCalls .smtp last.1 = [.socket 3, .socket 4, .close 4, .close 3] ∧
      serviceCalls .smtps last.1 = [] ∧
      OwnsDescriptors (serviceCalls .smtp last.1) (last.2.listen .smtp) := by
  intro last
  have idle : listeners.Reaches (· = Contexts.init) Machine.anyStep [] Contexts.init := .start rfl
  have reached := idle.trace listenerOps (Machine.admits_anyStep _ _ _ _)
  exact ⟨by decide, by decide, (listeners_own_descriptors reached .smtp).1⟩

/-! ## Startup and shutdown -/

/-- What a service has opened at start-up it has closed at shutdown, and nothing else. -/
def ClosesWhatItOpened (s : StartTurn) (srv : Server) (type : ConnectionType) : Prop :=
  ∃ held, balance [] (descriptorUses (startCalls s type)) = some held ∧
    balance held (descriptorUses (stopCalls srv type)) = some []

/-- The contexts `main` starts from. -/
def Contexts.zero : Contexts :=
  ⟨SmtpContext.zero, ListenContext.zero, ListenContext.zero, ListenContext.zero, ListenContext.zero⟩

def Server.contexts (srv : Server) : Contexts :=
  ⟨srv.smtpctx, srv.smtpsctx, srv.starttlsctx, srv.httpctx, srv.httpsctx⟩

theorem stopCalls_eq (srv : Server) (type : ConnectionType) :
    stopCalls srv type = (srv.contexts.listen type).sockets.map .close := by
  have stop := srv.contexts.stop_eq type
  cases type <;> exact congrArg Prod.snd stop

/-- `main` starts each service from the zeros of static storage. -/
theorem startServer_contexts {s : StartTurn} {srv : Server} (started : startServer s = some srv)
    (type : ConnectionType) :
    let start := Contexts.zero.start (loadSslctx s) (s.socket4 type) (s.socket6 type) type
    startCalls s type = start.2.2 ∧ srv.contexts.listen type = start.2.1.listen type := by
  simp only [startServer, Option.bind_eq_bind, Option.bind_eq_some_iff] at started
  obtain ⟨domain, -, started⟩ := started
  split at started
  · cases started
    cases type <;> exact ⟨rfl, rfl⟩
  · cases started

theorem loadSslctx_ne_none_iff (s : StartTurn) :
    loadSslctx s ≠ none ↔ s.sslCtxNew ≠ none ∧ 0 < s.certificate ∧ 0 < s.privateKey := by
  unfold loadSslctx
  by_cases key : s.privateKey ≤ 0
  · simp [key]
  · by_cases certificate : s.certificate ≤ 0
    · simp [key, certificate]
    · simp [key, certificate, Int.lt_of_not_ge key, Int.lt_of_not_ge certificate]

/-- What a start from the zeros with a TLS context opens, the stop behind it closes. -/
theorem closesWhatItOpened_of_sslctx {s : StartTurn} {srv : Server}
    (started : startServer s = some srv) (ctx : loadSslctx s ≠ none) (type : ConnectionType) :
    ClosesWhatItOpened s srv type := by
  obtain ⟨calls, context⟩ := startServer_contexts started type
  have idle : (Contexts.zero.listen type).active = false := by cases type <;> rfl
  obtain ⟨why, -⟩ | ⟨-, -, runs, events⟩ :=
    Contexts.zero.start_cases (loadSslctx s) (s.socket4 type) (s.socket6 type) type
  · -- neither reason for a start that does nothing applies
    obtain active | missing := why
    · rw [active] at idle
      cases idle
    · exact absurd missing ctx
  · have balances := (startListeners_balances balances_nil idle (s.socket4 type) (s.socket6 type)).1
    obtain ⟨held, after, perm⟩ := balances.releaseAll
    rw [List.perm_nil] at perm
    subst perm
    rw [balance_append, Option.bind_eq_some_iff] at after
    unfold ClosesWhatItOpened
    rw [stopCalls_eq, descriptorUses_close, context, runs, calls, events]
    exact after

/-- Without one, SMTPS is left with the zeros. -/
theorem not_closesWhatItOpened {s : StartTurn} {srv : Server} (started : startServer s = some srv)
    (missing : loadSslctx s = none) : ¬ ClosesWhatItOpened s srv .smtps := by
  obtain ⟨calls, context⟩ := startServer_contexts started .smtps
  rw [missing] at calls context
  rintro ⟨held, opens, closes⟩
  rw [calls] at opens
  cases opens
  rw [stopCalls_eq, context] at closes
  cases closes

/-- **When shutdown closes what start-up opened**: if and only if `main` got a TLS
    context. -/
theorem shutdown_closes_iff {s : StartTurn} {srv : Server} (started : startServer s = some srv) :
    (∀ type, ClosesWhatItOpened s srv type) ↔
      s.sslCtxNew ≠ none ∧ 0 < s.certificate ∧ 0 < s.privateKey := by
  rw [← loadSslctx_ne_none_iff]
  constructor
  · intro closes missing
    exact not_closesWhatItOpened started missing (closes .smtps)
  · intro ctx type
    exact closesWhatItOpened_of_sslctx started ctx type

/-- A start on free ports, with a descriptor of its own for each socket. -/
def startApart (certificate privateKey : Int) : StartTurn :=
  { startWith certificate privateKey with
    socket4 := fun
      | .smtp => ⟨3, 0, 0⟩
      | .smtps => ⟨5, 0, 0⟩
      | .starttls => ⟨7, 0, 0⟩
      | .http => ⟨9, 0, 0⟩
      | .https => ⟨11, 0, 0⟩
    socket6 := fun
      | .smtp => ⟨4, 0, 0⟩
      | .smtps => ⟨6, 0, 0⟩
      | .starttls => ⟨8, 0, 0⟩
      | .http => ⟨10, 0, 0⟩
      | .https => ⟨12, 0, 0⟩ }

theorem shutdown_closes_withTls :
    ∃ srv, startServer (startApart 1 1) = some srv ∧
      stopCalls srv .smtps = [.close 5, .close 6] ∧
      ∀ type, ClosesWhatItOpened (startApart 1 1) srv type :=
  ⟨_, rfl, by decide, (shutdown_closes_iff rfl).mpr (by decide)⟩

/-- With no certificate, and so no context to load the key into, SMTPS opens nothing, and
    shutdown closes descriptor 0 twice. -/
theorem shutdown_closes_foreign_descriptor :
    ∃ srv, startServer (startApart 0 0) = some srv ∧
      startCalls (startApart 0 0) .smtps = [] ∧ stopCalls srv .smtps = [.close 0, .close 0] ∧
      ¬ ∀ type, ClosesWhatItOpened (startApart 0 0) srv type := by
  refine ⟨_, rfl, by decide, by decide, ?_⟩
  intro closes
  obtain ⟨held, opens, closed⟩ := closes .smtps
  cases opens
  cases closed

end Femail
