/-
# The dispatcher of a server

A dispatcher takes requests from its channel, one for each `run_once`, and hands them to the
server.  A request may be streaming: its task is awaited before the next request.  When such a
call fails, or the future that waits for it is dropped, the dispatcher is broken: it closes its
channel with an error, and gives that error to everyone from then on.

`run_once` is an `async fn`.  Its future is kept here as the point where it is suspended, and a
poll runs it from there to the next point.  What the dispatched calls come to, when tasks end and
what is done with the future is up to the steps of a run.
-/
import Mathlib.Data.List.Induction
import Recapn.Lib.Prog

namespace Recapn.Rpc

open Recapn.Lib

/-! ## Errors, requests and results -/

/-- `ErrorKind`. -/
inductive ErrorKind where
  | failed
  | overloaded
  | disconnected
  | unimplemented
deriving DecidableEq, Repr

/-- `Error`. -/
structure Error where
  kind : ErrorKind
  description : String
deriving DecidableEq, Repr

/-- `Error::failed`. -/
def Error.failed (description : String) : Error := ⟨.failed, description⟩

/-- Requests are numbered as they are sent. -/
abbrev RequestId := ℕ

/-- `mpsc::Item`. -/
inductive Item where
  | request (id : RequestId)
  | event
deriving DecidableEq, Repr

/-- What a `JoinHandle` gives: the result of the task, or the text of the error why there is none
(the task panicked). -/
abbrev TaskResult := Except String (Except Error Unit)

/-- The result of the task, with an error of the handle as an error. -/
def TaskResult.flatten : TaskResult → Except Error Unit
  | .error text => .error (.failed text)
  | .ok result => result

/-- `DispatchResult`.  The task of a streaming request is known by the request. -/
inductive DispatchResult where
  | done
  | broken (err : Error)
  | streaming
deriving DecidableEq, Repr

/-! ## The state -/

/-- `DispatcherState`.  The receiver's channel is a part of the server here. -/
inductive DispatcherState where
  | broken (err : Error)
  | active
deriving DecidableEq, Repr

/-- The future of a `run_once`: not polled yet, or suspended at one of its two awaits. -/
inductive RunOnce where
  | start
  | receiving
  | streaming (request : RequestId)
deriving DecidableEq, Repr

/-- What happened. -/
inductive Event where
  /-- A request was dispatched, with its result, unless the call panicked. -/
  | dispatched (request : RequestId) (result : Option DispatchResult)
  /-- The task of a streaming request ended. -/
  | finished (request : RequestId) (result : TaskResult)
  /-- `run_once` got the result of the task. -/
  | joined (request : RequestId) (result : TaskResult)
  /-- The future was dropped while it waited for the task. -/
  | dropped (request : RequestId)
  /-- `run_once` returned. -/
  | returned (result : Except Error Bool)
  /-- The request was answered with the error, without being dispatched. -/
  | ended (request : RequestId) (err : Error)

/-- A server: the dispatcher, its channel, the future of a `run_once` and the tasks that the server
spawned, with their results when they ended. -/
structure Server where
  state : DispatcherState
  queue : List Item
  /-- There still are senders. -/
  senders : Bool
  /-- The error that the channel was closed with. -/
  closed : Option Error
  sent : ℕ
  future : Option RunOnce
  tasks : RequestId → Option (Option TaskResult)
  /-- What happened so far, the last first. -/
  log : List Event

/-- Programs on a server. -/
abbrev ServerM := Prog Empty Server

namespace Server

/-- `new_server`. -/
def new : Server := ⟨.active, [], true, none, 0, none, fun _ => none, []⟩

/-- Note what happened. -/
def record (event : Event) : ServerM Unit :=
  Prog.modify fun s => { s with log := event :: s.log }

/-! ## The channel -/

/-- The requests among the items of a queue. -/
def requests : List Item → List RequestId
  | [] => []
  | .request id :: queue => id :: requests queue
  | .event :: queue => requests queue

/-- Answer requests with the error, one after the other. -/
def endAll (err : Error) : List RequestId → ServerM Unit
  | [] => pure ()
  | id :: rest => do
    record (.ended id err)
    endAll err rest

/-- `Receiver::close`: the requests in the queue are answered with the error. -/
def close (err : Error) : ServerM Unit := do
  let s ← Prog.get
  Prog.modify fun s => { s with closed := some err, queue := [] }
  endAll err (requests s.queue)

/-- `Sender::send` of a request.  A closed channel answers it with its error. -/
def send : ServerM Unit := do
  let s ← Prog.get
  if s.senders then do
    let id := s.sent
    Prog.modify fun s => { s with sent := id + 1 }
    match s.closed with
    | some err => record (.ended id err)
    | none => Prog.modify fun s => { s with queue := s.queue ++ [.request id] }
  else pure ()

/-- Sending an event. -/
def sendEvent : ServerM Unit :=
  Prog.modify fun s =>
    if s.senders ∧ s.closed = none then { s with queue := s.queue ++ [.event] } else s

/-! ## The dispatcher -/

/-- `mem::replace` of the state by `Broken`, and closing the receiver that was in it. -/
def breakWith (err : Error) : ServerM Unit := do
  let s ← Prog.get
  Prog.modify fun s => { s with state := .broken err }
  match s.state with
  | .active => close err
  | .broken _ => Prog.halt .panic

/-- `run_once` returns. -/
def finishRun (result : Except Error Bool) : ServerM Unit := do
  Prog.modify fun s => { s with future := none }
  record (.returned result)

/-- The task of a streaming request ends. -/
def finishTask (request : RequestId) (result : TaskResult) : ServerM Unit := do
  let s ← Prog.get
  match s.tasks request with
  | some none => do
    Prog.modify fun s =>
      { s with tasks := fun r => if r = request then some (some result) else s.tasks r }
    record (.finished request result)
  | _ => pure ()

/-- `run_once` from the await of the task on. -/
def pollTask (request : RequestId) : ServerM Unit := do
  let s ← Prog.get
  match s.tasks request with
  | some (some result) => do
    -- the bomb is defused
    record (.joined request result)
    match result.flatten with
    | .ok () => finishRun (.ok true)
    | .error err => do
      breakWith err
      finishRun (.error err)
  | _ => Prog.modify fun s => { s with future := some (.streaming request) }

/-- `run_once` from the dispatch of a request on.  `ready` is the result of its task, if the task
ended before it was polled. -/
def handle (request : RequestId) (result : Option DispatchResult) (ready : Option TaskResult) :
    ServerM Unit := do
  record (.dispatched request result)
  match result with
  | none => Prog.modify fun s => { s with future := none }
  | some .done => finishRun (.ok true)
  | some (.broken err) => do
    breakWith err
    finishRun (.error err)
  | some .streaming => do
    Prog.modify fun s => { s with tasks := fun r => if r = request then some none else s.tasks r }
    match ready with
    | some result => finishTask request result
    | none => pure ()
    pollTask request

/-- `run_once` from the await of an item on. -/
def pollRecv (result : Option DispatchResult) (ready : Option TaskResult) : ServerM Unit := do
  let s ← Prog.get
  if s.senders then
    match s.queue with
    | [] => Prog.modify fun s => { s with future := some .receiving }
    | .event :: queue => do
      Prog.modify fun s => { s with queue := queue }
      finishRun (.ok true)
    | .request id :: queue => do
      Prog.modify fun s => { s with queue := queue }
      handle id result ready
  else finishRun (.ok false)

/-- A poll of the future, if there is one. -/
def poll (result : Option DispatchResult) (ready : Option TaskResult) : ServerM Unit := do
  let s ← Prog.get
  match s.future with
  | none => pure ()
  | some .start =>
    match s.state with
    | .broken err => finishRun (.error err)
    | .active => pollRecv result ready
  | some .receiving => pollRecv result ready
  | some (.streaming request) => pollTask request

/-- The error of a dropped future. -/
def droppedErr : Error := .failed "a future handling a blocking request was dropped"

/-- The future is dropped.  Where it waits for a task, the bomb goes off. -/
def drop : ServerM Unit := do
  let s ← Prog.get
  Prog.modify fun s => { s with future := none }
  match s.future with
  | some (.streaming request) => do
    record (.dropped request)
    breakWith droppedErr
  | _ => pure ()

end Server

/-- A step of a run: of the clients, of the owner of the dispatcher, or of a task. -/
inductive Step where
  | send
  | sendEvent
  | dropSenders
  /-- Call `run_once`.  It borrows the dispatcher, so that there is one future at a time. -/
  | runOnce
  /-- Poll the future.  If a request is dispatched, the call comes to `result`. -/
  | poll (result : Option DispatchResult) (ready : Option TaskResult)
  | drop
  | finishTask (request : RequestId) (result : TaskResult)

/-- The program of a step. -/
def Step.prog : Step → ServerM Unit
  | .send => Server.send
  | .sendEvent => Server.sendEvent
  | .dropSenders => Prog.modify fun s => { s with senders := false }
  | .runOnce => Prog.modify fun s => if s.future = none then { s with future := some .start } else s
  | .poll result ready => Server.poll result ready
  | .drop => Server.drop
  | .finishTask request result => Server.finishTask request result

/-- The steps, one after the other. -/
def run : List Step → ServerM Unit
  | [] => pure ()
  | step :: steps => do
    step.prog
    run steps

/-! ## What should hold -/

/-- The error that the event breaks the dispatcher with. -/
def Event.cause : Event → Option Error
  | .dispatched _ (some (.broken err)) => some err
  | .joined _ result =>
    match result.flatten with
    | .ok () => none
    | .error err => some err
  | .dropped _ => some Server.droppedErr
  | _ => none

/-- What broke the dispatcher. -/
def causes (log : List Event) : List Error := log.filterMap Event.cause

/-- The requests that were dispatched, the first one first. -/
def dispatched : List Event → List RequestId
  | [] => []
  | .dispatched request _ :: log => dispatched log ++ [request]
  | _ :: log => dispatched log

/-- The requests that were answered without being dispatched. -/
def ended : List Event → List RequestId
  | [] => []
  | .ended request _ :: log => ended log ++ [request]
  | _ :: log => ended log

/-- What may happen next: a request is dispatched if nothing broke and all tasks of streaming
requests ended; after something broke, requests end with its error and `run_once` returns it, and
nothing breaks again. -/
def Event.Allowed (log : List Event) : Event → Prop
  | .dispatched _ _ => causes log = [] ∧ ∀ earlier, .dispatched earlier (some .streaming) ∈ log →
      ∃ result, .finished earlier result ∈ log
  | .joined request result => causes log = [] ∧ .finished request result ∈ log
  | .dropped _ => causes log = []
  | .returned result => ∀ err ∈ causes log, result = .error err
  | .ended _ err => causes log = [err]
  | .finished _ _ => True

/-- Only what was allowed happened. -/
def Good : List Event → Prop
  | [] => True
  | event :: log => event.Allowed log ∧ Good log

namespace Server

variable {s : Server}

lemma endAll_apply (err : Error) (ids : List RequestId) (s : Server) :
    endAll err ids s
      = .ok () { s with log := (ids.map fun id => Event.ended id err).reverse ++ s.log } := by
  induction ids generalizing s with
  | nil => rfl
  | cons id ids ih =>
    show (record (.ended id err) >>= fun _ => endAll err ids) s = _
    rw [Prog.bind_of_ok (rfl : record (.ended id err) s = .ok () _), ih]
    simp

/-- The server after its dispatcher broke. -/
def brokenWith (s : Server) (err : Error) : Server :=
  { s with
    state := .broken err
    closed := some err
    queue := []
    log := ((requests s.queue).map fun id => Event.ended id err).reverse ++ s.log }

/-- The arm that is marked as unreachable is not reached from an active dispatcher. -/
lemma breakWith_apply (hactive : s.state = .active) (err : Error) :
    breakWith err s = .ok () (s.brokenWith err) := by
  have hclose : breakWith err s = close err { s with state := .broken err } := by
    simp [breakWith, Prog.bind_apply, hactive]
  rw [hclose]
  show endAll err (requests s.queue) _ = _
  rw [endAll_apply]
  rfl

/-- The server after `run_once` returned. -/
def returnedWith (s : Server) (result : Except Error Bool) : Server :=
  { s with future := none, log := .returned result :: s.log }

lemma finishRun_apply (result : Except Error Bool) (s : Server) :
    finishRun result s = .ok () (s.returnedWith result) := rfl

end Server

/-! ## The invariant -/

/-- The request whose task is awaited. -/
def awaited : Option RunOnce → Option RequestId
  | some (.streaming request) => some request
  | _ => none

/-- What holds of a server while `run_once` is at work: `current` is the only request whose task
may not have ended. -/
structure Core (s : Server) (current : Option RequestId) : Prop where
  good : Good s.log
  active : s.state = .active → causes s.log = [] ∧ s.closed = none ∧ ended s.log = []
  broken : ∀ err, s.state = .broken err →
    causes s.log = [err] ∧ s.closed = some err ∧ s.queue = []
  served : ∀ request, .dispatched request (some .streaming) ∈ s.log →
    (∃ result, .finished request result ∈ s.log) ∨ current = some request ∨ causes s.log ≠ []
  tasks : ∀ request result, s.tasks request = some (some result) → .finished request result ∈ s.log

/-- The requests that were sent, in order. -/
def Ordered (s : Server) : Prop :=
  dispatched s.log ++ ended s.log ++ Server.requests s.queue = List.range s.sent

/-- What holds of a server between the steps. -/
structure Whole (s : Server) : Prop where
  core : Core s (awaited s.future)
  ordered : Ordered s
  future : ∀ err, s.state = .broken err → s.future = none ∨ s.future = some .start

lemma whole_new : Whole Server.new where
  core := ⟨trivial, fun _ => ⟨rfl, rfl, rfl⟩, fun _ h => (nomatch h), fun _ h => (nomatch h),
    fun _ _ h => (nomatch h)⟩
  ordered := rfl
  future := fun _ h => (nomatch h)

namespace Core

variable {s : Server} {current : Option RequestId}

/-- Nothing is awaited any more. -/
lemma idle (h : Core s current) (hserved : ∀ request, current = some request →
    (∃ result, .finished request result ∈ s.log) ∨ causes s.log ≠ []) : Core s none := by
  refine ⟨h.good, h.active, h.broken, fun request hmem => ?_, h.tasks⟩
  rcases h.served request hmem with hfinished | hcurrent | hcauses
  · exact Or.inl hfinished
  · exact (hserved request hcurrent).imp_right Or.inr
  · exact Or.inr (Or.inr hcauses)

/-- Neither the future nor the senders nor what was sent matter for it. -/
lemma congr (h : Core s current) {s' : Server} (hstate : s'.state = s.state)
    (hclosed : s'.closed = s.closed) (hlog : s'.log = s.log) (htasks : s'.tasks = s.tasks)
    (hqueue : ∀ err, s.state = .broken err → s'.queue = []) : Core s' current := by
  refine ⟨hlog ▸ h.good, ?_, ?_, ?_, ?_⟩
  · rw [hstate, hlog, hclosed]
    exact h.active
  · intro err herr
    rw [hstate] at herr
    rw [hlog, hclosed]
    exact ⟨(h.broken err herr).1, (h.broken err herr).2.1, hqueue err herr⟩
  · rw [hlog]
    exact h.served
  · rw [hlog, htasks]
    exact h.tasks

/-- Something is noted that neither breaks the dispatcher nor ends a request. -/
lemma record (h : Core s current) {event : Event} (hallowed : event.Allowed s.log)
    (hcause : event.cause = none) (hended : ended (event :: s.log) = ended s.log)
    {current' : Option RequestId} (hcurrent : current = current' ∨ current = none)
    (hevent : ∀ request, event = .dispatched request (some .streaming) →
      current' = some request) :
    Core { s with log := event :: s.log } current' := by
  have hcauses : causes (event :: s.log) = causes s.log := by
    rw [causes, List.filterMap_cons, hcause]
    rfl
  refine ⟨⟨hallowed, h.good⟩, ?_, ?_, fun request hmem => ?_, ?_⟩
  · intro hactive
    dsimp only
    rw [hcauses, hended]
    exact h.active hactive
  · intro err herr
    dsimp only
    rw [hcauses]
    exact h.broken err herr
  · dsimp only at hmem ⊢
    rw [hcauses]
    rcases List.mem_cons.1 hmem with heq | hmem
    · exact Or.inr (Or.inl (hevent request heq.symm))
    · rcases h.served request hmem with ⟨result, hresult⟩ | hcur | hne
      · exact Or.inl ⟨result, List.mem_cons_of_mem _ hresult⟩
      · rcases hcurrent with rfl | rfl
        · exact Or.inr (Or.inl hcur)
        · cases hcur
      · exact Or.inr (Or.inr hne)
  · intro request result hresult
    exact List.mem_cons_of_mem _ (h.tasks request result hresult)

/-- What was noted breaks the dispatcher, and its queue is answered. -/
lemma breakWith (h : Core s current) (hactive : s.state = .active) {event : Event} {err : Error}
    (hallowed : event.Allowed s.log) (hcause : event.cause = some err)
    (current' : Option RequestId) : Core (Server.brokenWith { s with log := event :: s.log } err) current' := by
  obtain ⟨hcauses, -, -⟩ := h.active hactive
  have hcauses' : causes (event :: s.log) = [err] := by
    rw [causes, List.filterMap_cons, hcause]
    show err :: causes s.log = _
    rw [hcauses]
  -- the requests of the queue end one after the other
  have hall : ∀ ids : List RequestId,
      Good ((ids.map fun id => Event.ended id err).reverse ++ event :: s.log) ∧
      causes ((ids.map fun id => Event.ended id err).reverse ++ event :: s.log) = [err] := by
    intro ids
    induction ids using List.reverseRecOn with
    | nil => exact ⟨⟨hallowed, h.good⟩, hcauses'⟩
    | append_singleton ids id ih =>
      rw [List.map_append, List.reverse_append]
      exact ⟨⟨ih.2, ih.1⟩, ih.2⟩
  obtain ⟨hgood, hcausesAll⟩ := hall (Server.requests s.queue)
  refine ⟨hgood, fun h => (nomatch h), fun err' herr => ?_, fun _ _ => Or.inr (Or.inr ?_), ?_⟩
  · cases herr
    exact ⟨hcausesAll, rfl, rfl⟩
  · show causes (_ ++ event :: s.log) ≠ []
    rw [hcausesAll]
    exact List.cons_ne_nil _ _
  · intro request result hresult
    exact List.mem_append_right _ (List.mem_cons_of_mem _ (h.tasks request result hresult))

end Core

section Order

/-- Requests that end with an error follow the others. -/
lemma order_endAll (err : Error) (ids : List RequestId) (log : List Event) :
    dispatched ((ids.map fun id => Event.ended id err).reverse ++ log) = dispatched log ∧
    ended ((ids.map fun id => Event.ended id err).reverse ++ log) = ended log ++ ids := by
  induction ids using List.reverseRecOn with
  | nil => exact ⟨rfl, (List.append_nil _).symm⟩
  | append_singleton ids id ih =>
    rw [List.map_append, List.reverse_append]
    refine ⟨ih.1, ?_⟩
    show ended ((ids.map fun id => Event.ended id err).reverse ++ log) ++ [id] = _
    rw [ih.2, List.append_assoc]

lemma Ordered.brokenWith {s : Server} (h : Ordered s) (err : Error) : Ordered (s.brokenWith err) := by
  obtain ⟨hdispatched, hended⟩ := order_endAll err (Server.requests s.queue) s.log
  show dispatched (_ ++ s.log) ++ ended (_ ++ s.log) ++ [] = List.range s.sent
  rw [hdispatched, hended, List.append_nil, ← List.append_assoc]
  exact h

end Order

/-! ## The steps -/

namespace Server

variable {s : Server}

/-- `run_once` returns, with the error if the dispatcher is broken. -/
lemma whole_returnedWith (h : Core s none) (horder : Ordered s) {result : Except Error Bool}
    (hresult : ∀ err ∈ causes s.log, result = .error err) : Whole (s.returnedWith result) := by
  refine ⟨?_, horder, fun _ _ => Or.inl rfl⟩
  have hallowed : (Event.returned result).Allowed s.log := hresult
  have hcore : Core { s with log := .returned result :: s.log } none :=
    h.record hallowed rfl rfl (Or.inl rfl) fun _ h => (nomatch h)
  exact hcore.congr rfl rfl rfl rfl fun err herr => (h.broken err herr).2.2

/-- The dispatcher breaks, and `run_once` returns the error. -/
lemma breakWith_finishRun (s : Server) (hactive : s.state = .active) {err : Error}
    (h : Core (s.brokenWith err) none) (horder : Ordered s) :
    ∃ s', (breakWith err >>= fun _ => finishRun (.error err)) s = .ok () s' ∧ Whole s' := by
  refine ⟨(s.brokenWith err).returnedWith (.error err), ?_, ?_⟩
  · rw [Prog.bind_of_ok (breakWith_apply hactive err)]
    rfl
  · refine whole_returnedWith h (horder.brokenWith err) fun err' herr' => ?_
    obtain ⟨hcauses, -⟩ := h.broken err rfl
    rw [hcauses, List.mem_singleton] at herr'
    rw [herr']

/-- The await of a task: it ended, or it is waited for. -/
lemma pollTask_ok {request : RequestId} (h : Core s (some request)) (hactive : s.state = .active)
    (horder : Ordered s) : ∃ s', pollTask request s = .ok () s' ∧ Whole s' := by
  obtain ⟨hcauses, -, hended⟩ := h.active hactive
  rcases htask : s.tasks request with _ | _ | result
  · refine ⟨{ s with future := some (.streaming request) }, ?_, ?_, horder, fun err herr => ?_⟩
    · simp [pollTask, Prog.bind_apply, htask]
    · exact h.congr rfl rfl rfl rfl fun err herr => (h.broken err herr).2.2
    · rw [hactive] at herr
      cases herr
  · refine ⟨{ s with future := some (.streaming request) }, ?_, ?_, horder, fun err herr => ?_⟩
    · simp [pollTask, Prog.bind_apply, htask]
    · exact h.congr rfl rfl rfl rfl fun err herr => (h.broken err herr).2.2
    · rw [hactive] at herr
      cases herr
  · have hfinished := h.tasks request result htask
    have hallowed : (Event.joined request result).Allowed s.log := ⟨hcauses, hfinished⟩
    rcases hflatten : result.flatten with err | u
    · have hrun : pollTask request s = (breakWith err >>= fun _ => finishRun (.error err))
          { s with log := .joined request result :: s.log } := by
        simp [pollTask, Server.record, Prog.bind_apply, htask, hflatten]
      rw [hrun]
      refine breakWith_finishRun { s with log := .joined request result :: s.log } hactive
        (h.breakWith hactive hallowed ?_ none) horder
      simp [Event.cause, hflatten]
    · have hrun : pollTask request s
          = .ok () ({ s with log := .joined request result :: s.log }.returnedWith (.ok true)) := by
        simp [pollTask, Server.record, Prog.bind_apply, htask, hflatten, finishRun_apply]
      refine ⟨_, hrun, ?_⟩
      have hcause : (Event.joined request result).cause = none := by
        simp [Event.cause, hflatten]
      have hcore : Core { s with log := .joined request result :: s.log } (some request) :=
        h.record hallowed hcause rfl (Or.inl rfl) fun _ h => (nomatch h)
      refine whole_returnedWith (hcore.idle fun r hr => ?_) horder fun err herr => ?_
      · cases hr
        exact Or.inl ⟨result, List.mem_cons_of_mem _ hfinished⟩
      · have hnil : causes (.joined request result :: s.log) = [] := by
          rw [causes, List.filterMap_cons, hcause]
          exact hcauses
        rw [hnil] at herr
        cases herr

/-- A task ends, if it was running. -/
lemma finishTask_ok {current : Option RequestId} (h : Core s current) (request : RequestId)
    (result : TaskResult) : ∃ s', finishTask request result s = .ok () s' ∧ Core s' current ∧
      s'.state = s.state ∧ s'.future = s.future ∧ (Ordered s → Ordered s') := by
  by_cases htask : s.tasks request = some none
  · have hrun : finishTask request result s = .ok () { s with
        tasks := fun r => if r = request then some (some result) else s.tasks r
        log := .finished request result :: s.log } := by
      simp [finishTask, Server.record, Prog.bind_apply, htask]
    have hallowed : (Event.finished request result).Allowed s.log := trivial
    have hcore : Core { s with log := .finished request result :: s.log } current :=
      h.record hallowed rfl rfl (Or.inl rfl) fun _ h => (nomatch h)
    refine ⟨_, hrun, ⟨hcore.good, hcore.active, hcore.broken, hcore.served, ?_⟩, rfl, rfl, id⟩
    intro r res hr
    dsimp only at hr ⊢
    split at hr
    · next heq =>
      cases hr
      rw [heq]
      exact List.mem_cons_self
    · exact List.mem_cons_of_mem _ (h.tasks r res hr)
  · refine ⟨s, ?_, h, rfl, rfl, id⟩
    rcases hcase : s.tasks request with _ | _ | res
    · simp [finishTask, Prog.bind_apply, hcase]
    · exact absurd hcase htask
    · simp [finishTask, Prog.bind_apply, hcase]

/-- A request is dispatched by an active dispatcher that awaits nothing. -/
lemma handle_ok (h : Core s none) (hactive : s.state = .active) {request : RequestId}
    (horder : dispatched s.log ++ [request] ++ requests s.queue = List.range s.sent)
    (result : Option DispatchResult) (ready : Option TaskResult) :
    ∃ s', handle request result ready s = .ok () s' ∧ Whole s' := by
  obtain ⟨hcauses, -, hended⟩ := h.active hactive
  have hallowed : (Event.dispatched request result).Allowed s.log := by
    refine ⟨hcauses, fun earlier hmem => ?_⟩
    rcases h.served earlier hmem with hfinished | hcurrent | hne
    · exact hfinished
    · cases hcurrent
    · exact absurd hcauses hne
  have horder' : Ordered { s with log := .dispatched request result :: s.log } := by
    show dispatched s.log ++ [request] ++ ended s.log ++ requests s.queue = _
    rw [hended, List.append_nil]
    exact horder
  rcases result with _ | _ | err | _
  · -- the call panics, and the future is gone
    refine ⟨{ s with log := .dispatched request none :: s.log, future := none }, rfl, ?_, horder',
      fun _ _ => Or.inl rfl⟩
    have hcore : Core { s with log := .dispatched request none :: s.log } none :=
      h.record hallowed rfl rfl (Or.inl rfl) fun _ h => (nomatch h)
    exact hcore.congr rfl rfl rfl rfl fun err herr => (h.broken err herr).2.2
  · refine ⟨_, rfl, whole_returnedWith (h.record hallowed rfl rfl (Or.inl rfl)
      fun _ h => (nomatch h)) horder' fun err herr => ?_⟩
    rw [show causes (.dispatched request (some .done) :: s.log) = causes s.log from rfl, hcauses]
      at herr
    cases herr
  · exact breakWith_finishRun { s with log := .dispatched request (some (.broken err)) :: s.log }
      hactive (h.breakWith hactive hallowed rfl none) horder'
  · have hcore : Core { s with log := .dispatched request (some .streaming) :: s.log }
        (some request) := by
      refine h.record hallowed rfl rfl (Or.inr rfl) fun r hr => ?_
      cases hr
      rfl
    have hspawned : Core { s with
        log := .dispatched request (some .streaming) :: s.log
        tasks := fun r => if r = request then some none else s.tasks r } (some request) := by
      refine ⟨hcore.good, hcore.active, hcore.broken, hcore.served, fun r res hr => ?_⟩
      dsimp only at hr ⊢
      split at hr
      · cases hr
      · exact List.mem_cons_of_mem _ (h.tasks r res hr)
    rcases ready with _ | result
    · exact pollTask_ok hspawned hactive horder'
    · obtain ⟨s', hrun, hcore', hstate, -, hordered⟩ := finishTask_ok hspawned request result
      obtain ⟨s'', hrun', hwhole⟩ := pollTask_ok hcore' (hstate.trans hactive) (hordered horder')
      refine ⟨s'', ?_, hwhole⟩
      show (finishTask request result >>= fun _ => pollTask request) _ = _
      rw [Prog.bind_of_ok hrun, hrun']

/-- An active dispatcher that awaits nothing takes an item. -/
lemma pollRecv_ok (h : Core s none) (hactive : s.state = .active) (horder : Ordered s)
    (result : Option DispatchResult) (ready : Option TaskResult) :
    ∃ s', pollRecv result ready s = .ok () s' ∧ Whole s' := by
  obtain ⟨hcauses, -, hended⟩ := h.active hactive
  have hpop : ∀ queue, Core { s with queue := queue } none := fun queue =>
    h.congr rfl rfl rfl rfl fun err herr => by
      rw [hactive] at herr
      cases herr
  have hreturn : ∀ (s' : Server) (b : Bool), s'.log = s.log →
      ∀ err ∈ causes s'.log, (.ok b : Except Error Bool) = .error err := by
    intro s' b hlog err herr
    rw [hlog, hcauses] at herr
    cases herr
  rcases hsenders : s.senders with _ | _
  · refine ⟨s.returnedWith (.ok false), ?_, whole_returnedWith h horder (hreturn s _ rfl)⟩
    simp [pollRecv, Prog.bind_apply, hsenders, finishRun_apply]
  · rcases hqueue : s.queue with _ | ⟨item, queue⟩
    · refine ⟨{ s with future := some .receiving }, ?_, ?_, horder, fun err herr => ?_⟩
      · simp [pollRecv, Prog.bind_apply, hsenders, hqueue]
      · exact h.congr rfl rfl rfl rfl fun err herr => (h.broken err herr).2.2
      · rw [hactive] at herr
        cases herr
    · rcases item with id | _
      · have hrun : pollRecv result ready s = handle id result ready { s with queue := queue } := by
          simp [pollRecv, Prog.bind_apply, hsenders, hqueue]
        rw [hrun]
        refine handle_ok (hpop queue) hactive ?_ result ready
        unfold Ordered at horder
        rw [hqueue, hended, List.append_nil] at horder
        rw [List.append_assoc]
        exact horder
      · refine ⟨{ s with queue := queue }.returnedWith (.ok true), ?_,
          whole_returnedWith (hpop queue) ?_ (hreturn _ _ rfl)⟩
        · simp [pollRecv, Prog.bind_apply, hsenders, hqueue, finishRun_apply]
        · unfold Ordered at horder
          rw [hqueue] at horder
          exact horder

end Server

section Step

variable {s : Server}

lemma requests_append (queue : List Item) (item : Item) :
    Server.requests (queue ++ [item]) = Server.requests queue ++ Server.requests [item] := by
  induction queue with
  | nil => rfl
  | cons first queue ih =>
    cases first with
    | request id =>
      show id :: Server.requests (queue ++ [item]) = id :: _ ++ _
      rw [ih]
      rfl
    | event => exact ih

/-- A request is sent. -/
lemma Whole.send (h : Whole s) : ∃ s', Server.send s = .ok () s' ∧ Whole s' ∧ s'.state = s.state := by
  obtain ⟨hcore, horder, hfuture⟩ := h
  rcases hsenders : s.senders with _ | _
  · refine ⟨s, ?_, ⟨hcore, horder, hfuture⟩, rfl⟩
    simp [Server.send, Prog.bind_apply, hsenders]
  · rcases hstate : s.state with err | _
    · -- the channel is closed, and the request is answered
      obtain ⟨hcauses, hclosed, hqueue⟩ := hcore.broken err hstate
      refine ⟨{ s with sent := s.sent + 1, log := .ended s.sent err :: s.log }, ?_, ⟨?_, ?_, hfuture⟩,
        hstate⟩
      · simp [Server.send, Server.record, Prog.bind_apply, hsenders, hclosed]
      · have hcauses' : causes (.ended s.sent err :: s.log) = [err] := hcauses
        refine ⟨⟨hcauses, hcore.good⟩, fun hactive => ?_, fun err' herr => ?_, fun request hmem => ?_, ?_⟩
        · rw [hstate] at hactive
          cases hactive
        · rw [hstate] at herr
          cases herr
          exact ⟨hcauses', hclosed, hqueue⟩
        · refine Or.inr (Or.inr ?_)
          dsimp only
          rw [hcauses']
          exact List.cons_ne_nil _ _
        · intro request result hresult
          exact List.mem_cons_of_mem _ (hcore.tasks request result hresult)
      · unfold Ordered at horder ⊢
        rw [hqueue, show Server.requests [] = [] from rfl, List.append_nil] at horder ⊢
        show dispatched s.log ++ (ended s.log ++ [s.sent]) = List.range (s.sent + 1)
        rw [← List.append_assoc, horder, List.range_succ]
    · obtain ⟨-, hclosed, -⟩ := hcore.active hstate
      refine ⟨{ s with sent := s.sent + 1, queue := s.queue ++ [.request s.sent] }, ?_,
        ⟨?_, ?_, hfuture⟩, hstate⟩
      · simp [Server.send, Prog.bind_apply, hsenders, hclosed]
      · refine hcore.congr rfl rfl rfl rfl fun err herr => ?_
        rw [hstate] at herr
        cases herr
      · unfold Ordered at horder ⊢
        dsimp only
        rw [requests_append, ← List.append_assoc, horder, List.range_succ]
        rfl

/-- An event is sent. -/
lemma Whole.sendEvent (h : Whole s) :
    ∃ s', Server.sendEvent s = .ok () s' ∧ Whole s' ∧ s'.state = s.state := by
  obtain ⟨hcore, horder, hfuture⟩ := h
  by_cases hopen : s.senders = true ∧ s.closed = none
  · refine ⟨{ s with queue := s.queue ++ [.event] }, ?_, ⟨?_, ?_, hfuture⟩, rfl⟩
    · show Outcome.ok () (if _ then _ else _) = _
      rw [if_pos hopen]
    · refine hcore.congr rfl rfl rfl rfl fun err herr => ?_
      rw [(hcore.broken err herr).2.1] at hopen
      cases hopen.2
    · unfold Ordered at horder ⊢
      dsimp only
      rw [requests_append, show Server.requests [.event] = [] from rfl, List.append_nil]
      exact horder
  · refine ⟨s, ?_, ⟨hcore, horder, hfuture⟩, rfl⟩
    show Outcome.ok () (if _ then _ else _) = _
    rw [if_neg hopen]

/-- The future is polled. -/
lemma Whole.poll (h : Whole s) (result : Option DispatchResult) (ready : Option TaskResult) :
    ∃ s', Server.poll result ready s = .ok () s' ∧ Whole s' ∧
      ∀ err, s.state = .broken err → s'.state = .broken err := by
  have hwhole := h
  obtain ⟨hcore, horder, hfuture⟩ := h
  -- a future that is suspended borrows the receiver of an active dispatcher
  have hactive : s.future ≠ none → s.future ≠ some .start → s.state = .active := by
    intro hnone hstart
    rcases hstate : s.state with err | _
    · rcases hfuture err hstate with h | h
      · exact absurd h hnone
      · exact absurd h hstart
    · rfl
  have hlift : ∀ {s'}, s.state = .active → Whole s' → Whole s' ∧
      ∀ err, s.state = .broken err → s'.state = .broken err := fun hactive hwhole =>
    ⟨hwhole, fun err herr => by
      rw [hactive] at herr
      cases herr⟩
  rcases hpoint : s.future with _ | _ | _ | request
  · refine ⟨s, ?_, hwhole, fun _ herr => herr⟩
    simp [Server.poll, Prog.bind_apply, hpoint]
  · rw [hpoint] at hcore
    rcases hstate : s.state with err | _
    · refine ⟨s.returnedWith (.error err), ?_, Server.whole_returnedWith hcore horder ?_, ?_⟩
      · simp [Server.poll, Prog.bind_apply, hpoint, hstate, Server.finishRun_apply]
      · intro err' herr'
        rw [(hcore.broken err hstate).1, List.mem_singleton] at herr'
        rw [herr']
      · exact fun _ herr => hstate.trans herr
    · obtain ⟨s', hrun, hwhole'⟩ := Server.pollRecv_ok hcore hstate horder result ready
      refine ⟨s', ?_, hwhole', fun err herr => nomatch herr⟩
      rw [← hrun]
      simp [Server.poll, Prog.bind_apply, hpoint, hstate]
  · rw [hpoint] at hcore
    have hstate := hactive (by simp [hpoint]) (by simp [hpoint])
    obtain ⟨s', hrun, hwhole'⟩ := Server.pollRecv_ok hcore hstate horder result ready
    refine ⟨s', ?_, hlift hstate hwhole'⟩
    rw [← hrun]
    simp [Server.poll, Prog.bind_apply, hpoint]
  · rw [hpoint] at hcore
    have hstate := hactive (by simp [hpoint]) (by simp [hpoint])
    obtain ⟨s', hrun, hwhole'⟩ := Server.pollTask_ok hcore hstate horder
    refine ⟨s', ?_, hlift hstate hwhole'⟩
    rw [← hrun]
    simp [Server.poll, Prog.bind_apply, hpoint]

/-- The future is dropped. -/
lemma Whole.drop (h : Whole s) : ∃ s', Server.drop s = .ok () s' ∧ Whole s' ∧
    ∀ err, s.state = .broken err → s'.state = .broken err := by
  obtain ⟨hcore, horder, hfuture⟩ := h
  have hgone : ∀ current, Core s current → Core { s with future := none } current :=
    fun current hcore => hcore.congr rfl rfl rfl rfl fun err herr => (hcore.broken err herr).2.2
  rcases hpoint : s.future with _ | _ | _ | request
  · rw [hpoint] at hcore
    refine ⟨{ s with future := none }, ?_, ⟨hgone _ hcore, horder, fun _ _ => Or.inl rfl⟩,
      fun _ herr => herr⟩
    simp [Server.drop, Prog.bind_apply, hpoint]
  · rw [hpoint] at hcore
    refine ⟨{ s with future := none }, ?_, ⟨hgone _ hcore, horder, fun _ _ => Or.inl rfl⟩,
      fun _ herr => herr⟩
    simp [Server.drop, Prog.bind_apply, hpoint]
  · rw [hpoint] at hcore
    refine ⟨{ s with future := none }, ?_, ⟨hgone _ hcore, horder, fun _ _ => Or.inl rfl⟩,
      fun _ herr => herr⟩
    simp [Server.drop, Prog.bind_apply, hpoint]
  · -- the bomb goes off
    have hactive : s.state = .active := by
      rcases hstate : s.state with err | _
      · rcases hfuture err hstate with h | h
        · rw [h] at hpoint
          cases hpoint
        · rw [h] at hpoint
          cases hpoint
      · rfl
    have hallowed : (Event.dropped request).Allowed s.log := (hcore.active hactive).1
    refine ⟨Server.brokenWith { s with future := none, log := .dropped request :: s.log }
      Server.droppedErr, ?_, ⟨?_, ?_, fun _ _ => Or.inl rfl⟩, fun err herr => ?_⟩
    · have hrun : Server.drop s = Server.breakWith Server.droppedErr
          { s with future := none, log := .dropped request :: s.log } := by
        simp [Server.drop, Server.record, Prog.bind_apply, hpoint]
      rw [hrun]
      exact @Server.breakWith_apply { s with future := none, log := .dropped request :: s.log }
        hactive _
    · exact (hgone _ hcore).breakWith hactive hallowed rfl _
    · have hordered : Ordered { s with future := none, log := .dropped request :: s.log } := horder
      exact hordered.brokenWith _
    · rw [hactive] at herr
      cases herr

/-- **A step** returns, keeps the invariant, and leaves a broken dispatcher broken with the same
error. -/
lemma Whole.step (h : Whole s) (step : Step) : ∃ s', step.prog s = .ok () s' ∧ Whole s' ∧
    ∀ err, s.state = .broken err → s'.state = .broken err := by
  cases step with
  | send =>
    obtain ⟨s', hrun, hwhole, hstate⟩ := h.send
    exact ⟨s', hrun, hwhole, fun err herr => hstate.trans herr⟩
  | sendEvent =>
    obtain ⟨s', hrun, hwhole, hstate⟩ := h.sendEvent
    exact ⟨s', hrun, hwhole, fun err herr => hstate.trans herr⟩
  | dropSenders =>
    refine ⟨{ s with senders := false }, rfl, ⟨?_, h.ordered, h.future⟩, fun _ herr => herr⟩
    exact h.core.congr rfl rfl rfl rfl fun err herr => (h.core.broken err herr).2.2
  | runOnce =>
    by_cases hfuture : s.future = none
    · refine ⟨{ s with future := some .start }, ?_, ⟨?_, h.ordered, fun _ _ => Or.inr rfl⟩,
        fun _ herr => herr⟩
      · show Outcome.ok () (if _ then _ else _) = _
        rw [if_pos hfuture]
      · have hcore := h.core
        rw [hfuture] at hcore
        exact hcore.congr rfl rfl rfl rfl fun err herr => (hcore.broken err herr).2.2
    · refine ⟨s, ?_, h, fun _ herr => herr⟩
      show Outcome.ok () (if _ then _ else _) = _
      rw [if_neg hfuture]
  | poll result ready => exact h.poll result ready
  | drop => exact h.drop
  | finishTask request result =>
    obtain ⟨s', hrun, hcore, hstate, hfuture, hordered⟩ :=
      Server.finishTask_ok h.core request result
    refine ⟨s', hrun, ⟨?_, hordered h.ordered, ?_⟩, fun err herr => hstate.trans herr⟩
    · rw [hfuture]
      exact hcore
    · rw [hfuture, hstate]
      exact h.future

/-- Steps from a server with the invariant. -/
lemma Whole.run (h : Whole s) (steps : List Step) : ∃ s', run steps s = .ok () s' ∧ Whole s' ∧
    ∀ err, s.state = .broken err → s'.state = .broken err := by
  induction steps generalizing s with
  | nil => exact ⟨s, rfl, h, fun _ herr => herr⟩
  | cons step steps ih =>
    obtain ⟨s₁, hrun₁, hwhole₁, hbroken₁⟩ := h.step step
    obtain ⟨s₂, hrun₂, hwhole₂, hbroken₂⟩ := ih hwhole₁
    refine ⟨s₂, ?_, hwhole₂, fun err herr => hbroken₂ err (hbroken₁ err herr)⟩
    show (step.prog >>= fun _ => Rpc.run steps) s = _
    rw [Prog.bind_of_ok hrun₁, hrun₂]

end Step

end Recapn.Rpc
