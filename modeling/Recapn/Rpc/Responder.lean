/-
# How a dispatched request is answered

The dispatcher hands each request to the server with a responder.  The server can end it in ten
ways: with an error, with a function, or with a future that is spawned as a task.  A responder that
is dropped before it responds leaves the caller with an error of its own.

Two of the ways drop the responder: `StreamResponder::spawn_local` spawns the future alone, and
`StreamResponder::respond_with` only calls the function.  All others respond once, when the handler
is done, with what it came to (`Run.answeredOnce_iff`).
-/
import Recapn.Rpc.Dispatcher

namespace Recapn.Rpc

open Recapn.Lib

/-! ## Handlers -/

/-- What a handler does with its `Response`.  `ρ` is what a response message and its table hold. -/
inductive Action (ρ : Type) where
  /-- `Response::results`, and writes to the builder. -/
  | results (write : ρ → ρ)
  /-- `Response::tail_call`. -/
  | tailCall

/-- The future of a handler: what it does from each of its awaits to the next, and what it
returns. -/
structure Handler (ρ : Type) where
  first : List (Action ρ)
  rest : List (List (Action ρ))
  result : Except Error Unit

/-- The future of a streaming handler, which has no `Response`. -/
structure StreamHandler where
  awaits : ℕ
  result : Except Error Unit

/-- The part of a request that is not its parameters or its responder. -/
structure DispatchRequest where
  id : RequestId
  interface : ℕ
  method : ℕ

/-- How the server ends a request. -/
inductive Exit (ρ : Type) where
  -- `Responder`
  | respondWith (actions : List (Action ρ)) (result : Except Error Unit)
  | spawnWith (f : Handler ρ)
  | spawnLocalWith (f : Handler ρ)
  | error (err : Error)
  -- `DispatchRequest`
  | dispatchError (err : Error)
  | unimplementedInterface (interfaceName : String)
  | unimplementedMethod (interfaceName : String)
  -- `StreamResponder`
  | streamSpawn (f : StreamHandler)
  | streamSpawnLocal (f : StreamHandler)
  | streamRespondWith (result : Except Error Unit)

/-- `Error::unimplemented`. -/
def Error.unimplemented (description : String) : Error := ⟨.unimplemented, description⟩

/-- `Error::disconnected`. -/
def Error.disconnected (description : String) : Error := ⟨.disconnected, description⟩

namespace DispatchRequest

/-- The id of the interface in the format `:0<#16x`. -/
def interfaceText (request : DispatchRequest) : String :=
  String.ofList (('0' :: 'x' :: Nat.toDigits 16 request.interface).rightpad 16 '0')

/-- The error of `unimplemented_interface`. -/
def unimplementedInterface (request : DispatchRequest) (interfaceName : String) : Error :=
  .unimplemented ("Requested interface (@" ++ request.interfaceText ++ ") not implemented for \"" ++
    interfaceName ++ "\"")

/-- The error of `unimplemented_method`. -/
def unimplementedMethod (request : DispatchRequest) (interfaceName : String) : Error :=
  .unimplemented ("Method (@" ++ toString request.method ++ ") not implemented for interface \"" ++
    interfaceName ++ "\" (@" ++ request.interfaceText ++ ")")

end DispatchRequest

/-- What `run_once` learns of the way the server ended a request. -/
def Exit.dispatchResult {ρ : Type} : Exit ρ → DispatchResult
  | .streamSpawn _ => .streaming
  | .streamSpawnLocal _ => .streaming
  | .streamRespondWith (.error err) => .broken err
  | _ => .done

/-! ## Requests that are handled -/

/-- The locals of `with_context!`: whether the responder is still there, and the results. -/
structure Context (ρ : Type) where
  responder : Bool
  results : Option ρ

/-- A task that was spawned for a request. -/
inductive Task (ρ : Type) where
  /-- With a `Response`: what is done in the next poll, and in those after it. -/
  | context (ctx : Context ρ) (next : List (Action ρ)) (rest : List (List (Action ρ)))
      (result : Except Error Unit)
  /-- With the responder of a `StreamResponder`. -/
  | stream (f : StreamHandler)
  /-- Without a responder. -/
  | bare (f : StreamHandler)

/-- What happened to a request. -/
inductive Happened (ρ : Type) where
  /-- The handler is done, with what it returned and the results that it built. -/
  | completed (result : Except Error Unit) (built : Option ρ)
  | responded (response : Except Error ρ)
  /-- The responder was dropped. -/
  | dropped
  /-- The responder was given to another request. -/
  | forwarded
  | cancelled

/-- A request that was dispatched: how the server ends it, its task, and what happened. -/
structure Handled (ρ : Type) where
  request : DispatchRequest
  exit : Exit ρ
  task : Option (Task ρ)
  history : List (Happened ρ)

section Programs

variable {ρ : Type} (empty : ρ)

/-- An action of the handler.  `Response` is consumed by it, so that a tail call is the only one. -/
def Action.run (ctx : Context ρ) : Action ρ → Context ρ
  | .results write => { ctx with results := some (write (ctx.results.getD empty)) }
  | .tailCall => { ctx with responder := false }

/-- The actions of a handler, one after the other. -/
def Context.run (ctx : Context ρ) (actions : List (Action ρ)) : Context ρ :=
  actions.foldl (Action.run empty) ctx

/-- `with_context!` when it starts. -/
def Context.new : Context ρ := ⟨true, none⟩

/-- The end of `with_context!`. -/
def Context.finish (ctx : Context ρ) (result : Except Error Unit) : List (Happened ρ) :=
  if ctx.responder then
    [.completed result ctx.results,
      .responded (match result with
        | .ok () => .ok (match ctx.results with
          | some results => results
          | none => empty)
        | .error err => .error err)]
  else [.forwarded, .completed result ctx.results]

/-- The server ends a request with an error. -/
def respondError (err : Error) : List (Happened ρ) :=
  [.completed (.error err) none, .responded (.error err)]

/-- The request is given to the server, which ends it so: the task that it spawned, and what
happened. -/
def Exit.run (request : DispatchRequest) : Exit ρ → Option (Task ρ) × List (Happened ρ)
  | .respondWith actions result => (none, (Context.new.run empty actions).finish empty result)
  | .spawnWith f => (some (.context .new f.first f.rest f.result), [])
  | .spawnLocalWith f => (some (.context .new f.first f.rest f.result), [])
  | .error err => (none, respondError err)
  | .dispatchError err => (none, respondError err)
  | .unimplementedInterface interfaceName =>
    (none, respondError (request.unimplementedInterface interfaceName))
  | .unimplementedMethod interfaceName =>
    (none, respondError (request.unimplementedMethod interfaceName))
  | .streamSpawn f => (some (.stream f), [])
  -- the future is spawned, and the `StreamResponder` is dropped
  | .streamSpawnLocal f => (some (.bare f), [.dropped])
  | .streamRespondWith result => (none, [.completed result none, .dropped])

/-- A request is dispatched. -/
def Handled.dispatch (request : DispatchRequest) (exit : Exit ρ) : Handled ρ :=
  ⟨request, exit, (exit.run empty request).1, (exit.run empty request).2⟩

/-- The task of the request is polled, and runs to the next await or to its end. -/
def Handled.poll (h : Handled ρ) : Handled ρ :=
  match h.task with
  | none => h
  | some (.context ctx next rest result) =>
    let ctx := ctx.run empty next
    match rest with
    | [] => { h with task := none, history := h.history ++ ctx.finish empty result }
    | next :: rest => { h with task := some (.context ctx next rest result) }
  | some (.stream ⟨0, result⟩) =>
    { h with
      task := none
      history := h.history ++ [.completed result none,
        .responded (match result with
          | .ok () => .ok empty
          | .error err => .error err)] }
  | some (.stream ⟨awaits + 1, result⟩) => { h with task := some (.stream ⟨awaits, result⟩) }
  | some (.bare ⟨0, result⟩) =>
    { h with task := none, history := h.history ++ [.completed result none] }
  | some (.bare ⟨awaits + 1, result⟩) => { h with task := some (.bare ⟨awaits, result⟩) }

/-- The task of the request is cancelled, with the responder that it holds. -/
def Handled.cancel (h : Handled ρ) : Handled ρ :=
  match h.task with
  | none => h
  | some (.context ctx _ _ _) =>
    { h with
      task := none
      history := h.history ++ [.cancelled, if ctx.responder then .dropped else .forwarded] }
  | some (.stream _) => { h with task := none, history := h.history ++ [.cancelled, .dropped] }
  | some (.bare _) => { h with task := none, history := h.history ++ [.cancelled] }

/-! ## Runs -/

/-- The requests that were dispatched. -/
abbrev Handling (ρ : Type) := RequestId → Option (Handled ρ)

/-- A dispatcher with its requests: its own steps, each request that it dispatches, and the tasks in
any order. -/
inductive Run : Server → Handling ρ → Prop
  | new : Run Server.new fun _ => none
  /-- A step that dispatches no request. -/
  | dispatcher {s s' : Server} {k : Handling ρ} (h : Run s k) (step : Step)
      (hstep : step.prog s = .ok () s') (hsame : dispatched s'.log = dispatched s.log) : Run s' k
  /-- The server panicked when a request was given to it. -/
  | panicked {s s' : Server} {k : Handling ρ} (h : Run s k) (id : RequestId)
      (ready : Option TaskResult) (hstep : (Step.poll none ready).prog s = .ok () s')
      (hnew : dispatched s'.log = dispatched s.log ++ [id]) : Run s' k
  | dispatch {s s' : Server} {k : Handling ρ} (h : Run s k) (request : DispatchRequest)
      (exit : Exit ρ) (ready : Option TaskResult)
      (hstep : (Step.poll (some exit.dispatchResult) ready).prog s = .ok () s')
      (hnew : dispatched s'.log = dispatched s.log ++ [request.id]) :
      Run s' (Function.update k request.id (some (.dispatch empty request exit)))
  | poll {s : Server} {k : Handling ρ} (h : Run s k) (id : RequestId) :
      Run s (Function.update k id ((k id).map (Handled.poll empty)))
  | cancel {s : Server} {k : Handling ρ} (h : Run s k) (id : RequestId) :
      Run s (Function.update k id ((k id).map Handled.cancel))

/-! ## What should hold -/

/-- What the handler does with its `Response`. -/
def Exit.actions : Exit ρ → List (Action ρ)
  | .respondWith actions _ => actions
  | .spawnWith f => f.first ++ f.rest.flatten
  | .spawnLocalWith f => f.first ++ f.rest.flatten
  | _ => []

/-- What the handler returns. -/
def Exit.result (request : DispatchRequest) : Exit ρ → Except Error Unit
  | .respondWith _ result => result
  | .spawnWith f => f.result
  | .spawnLocalWith f => f.result
  | .error err => .error err
  | .dispatchError err => .error err
  | .unimplementedInterface interfaceName => .error (request.unimplementedInterface interfaceName)
  | .unimplementedMethod interfaceName => .error (request.unimplementedMethod interfaceName)
  | .streamSpawn f => f.result
  | .streamSpawnLocal f => f.result
  | .streamRespondWith result => result

/-- The results after an action. -/
def Action.build (built : Option ρ) : Action ρ → Option ρ
  | .results write => some (write (built.getD empty))
  | .tailCall => built

/-- The results that the handler builds. -/
def Exit.built (exit : Exit ρ) : Option ρ := exit.actions.foldl (Action.build empty) none

/-- The request is answered once: nothing happens until the handler is done, and then the caller
gets the error that it returned, or the results that it built, or an empty message. -/
def AnsweredOnce (h : Handled ρ) : Prop :=
  h.task ≠ none ∧ h.history = [] ∨
  h.task = none ∧ h.history = [.completed (h.exit.result h.request) (h.exit.built empty),
    .responded ((h.exit.result h.request).map fun () => (h.exit.built empty).getD empty)]

/-- The handler does not hand its responder to another request. -/
def Exit.NoTailCall (exit : Exit ρ) : Prop := .tailCall ∉ exit.actions

/-- The responder is dropped. -/
def Exit.Drops : Exit ρ → Prop
  | .streamSpawnLocal _ => True
  | .streamRespondWith _ => True
  | _ => False

end Programs

/-! ## What the programs do -/

section Handled

variable {ρ : Type} {empty : ρ} {h : Handled ρ} {ctx : Context ρ} {actions : List (Action ρ)}

/-- Without a tail call the responder stays, and the results are built. -/
lemma Context.run_of_noTailCall (htail : .tailCall ∉ actions) :
    ctx.run empty actions = ⟨ctx.responder, actions.foldl (Action.build empty) ctx.results⟩ := by
  induction actions generalizing ctx with
  | nil => rfl
  | cons action actions ih =>
    have hrest : .tailCall ∉ actions := fun hmem => htail (List.mem_cons_of_mem _ hmem)
    cases action with
    | results write => exact ih hrest
    | tailCall => exact absurd List.mem_cons_self htail

/-- With the responder the handler's outcome is the response. -/
lemma Context.finish_responder (results : Option ρ) (result : Except Error Unit) :
    Context.finish empty ⟨true, results⟩ result =
      [.completed result results, .responded (result.map fun () => results.getD empty)] := by
  cases result with
  | error err => rfl
  | ok a => cases results <;> rfl

/-- Where a request stands whose handler makes no tail call, and whose task is not cancelled. -/
inductive Stands (empty : ρ) (h : Handled ρ) : Prop
  | context {ctx : Context ρ} {next : List (Action ρ)} {rest : List (List (Action ρ))}
      (hdrops : ¬ h.exit.Drops)
      (htask : h.task = some (.context ctx next rest (h.exit.result h.request)))
      (hhistory : h.history = []) (hresponder : ctx.responder = true)
      (htail : .tailCall ∉ next ++ rest.flatten)
      (hbuilt : (next ++ rest.flatten).foldl (Action.build empty) ctx.results = h.exit.built empty)
  | stream {awaits : ℕ} (hdrops : ¬ h.exit.Drops)
      (htask : h.task = some (.stream ⟨awaits, h.exit.result h.request⟩))
      (hhistory : h.history = []) (hbuilt : h.exit.built empty = none)
  | answered (hdrops : ¬ h.exit.Drops) (htask : h.task = none)
      (hhistory : h.history = [.completed (h.exit.result h.request) (h.exit.built empty),
        .responded ((h.exit.result h.request).map fun () => (h.exit.built empty).getD empty)])
  | dropped (hdrops : h.exit.Drops) (hhistory : .dropped ∈ h.history)

lemma stands_dispatch (request : DispatchRequest) (exit : Exit ρ) (htail : exit.NoTailCall) :
    Stands empty (.dispatch empty request exit) := by
  cases exit with
  | respondWith actions result =>
    refine .answered id rfl ?_
    show (Context.new.run empty actions).finish empty result = _
    have hactions : .tailCall ∉ actions := htail
    rw [Context.run_of_noTailCall hactions]
    exact Context.finish_responder _ _
  | spawnWith f | spawnLocalWith f => exact .context id rfl rfl rfl htail rfl
  | error err | dispatchError err | unimplementedInterface interfaceName
  | unimplementedMethod interfaceName =>
    exact .answered id rfl rfl
  | streamSpawn f => exact .stream id rfl rfl rfl
  | streamSpawnLocal f => exact .dropped trivial List.mem_cons_self
  | streamRespondWith result =>
    exact .dropped trivial (List.mem_cons_of_mem _ List.mem_cons_self)

/-- A poll only adds to the history. -/
lemma Handled.poll_history (h : Handled ρ) : ∃ more, (h.poll empty).history = h.history ++ more := by
  unfold Handled.poll
  repeat' split
  all_goals first
    | exact ⟨_, rfl⟩
    | exact ⟨[], (List.append_nil _).symm⟩

lemma Handled.poll_exit (h : Handled ρ) : (h.poll empty).exit = h.exit := by
  unfold Handled.poll
  repeat' split
  all_goals rfl

lemma Stands.poll (hstands : Stands empty h) : Stands empty (h.poll empty) := by
  cases hstands with
  | @context ctx next rest hdrops htask hhistory hresponder htail hbuilt =>
    have hnext : .tailCall ∉ next := fun hmem => htail (List.mem_append_left _ hmem)
    have hrun := @Context.run_of_noTailCall _ empty ctx _ hnext
    cases rest with
    | nil =>
      rw [List.flatten_nil, List.append_nil] at hbuilt
      have hpoll : h.poll empty = { h with
          task := none
          history := (ctx.run empty next).finish empty (h.exit.result h.request) } := by
        rw [Handled.poll, htask, hhistory]
        rfl
      rw [hpoll]
      refine .answered hdrops rfl ?_
      show (ctx.run empty next).finish empty (h.exit.result h.request) = _
      rw [hrun, hresponder, hbuilt]
      exact Context.finish_responder _ _
    | cons part rest =>
      have hpoll : h.poll empty = { h with
          task := some (.context (ctx.run empty next) part rest (h.exit.result h.request)) } := by
        rw [Handled.poll, htask]
      rw [hpoll]
      refine .context hdrops rfl hhistory ?_ (fun hmem => htail ?_) ?_
      · rw [hrun]
        exact hresponder
      · exact List.mem_append_right _ hmem
      · simp only [hrun, ← hbuilt, List.flatten_cons, List.foldl_append]
  | @stream awaits hdrops htask hhistory hbuilt =>
    cases awaits with
    | zero =>
      have hpoll : h.poll empty = { h with
          task := none
          history := [.completed (h.exit.result h.request) none,
            .responded ((h.exit.result h.request).map fun () => empty)] } := by
        rw [Handled.poll, htask, hhistory]
        cases h.exit.result h.request <;> rfl
      rw [hpoll]
      refine .answered hdrops rfl ?_
      rw [hbuilt]
      rfl
    | succ awaits =>
      have hpoll : h.poll empty =
          { h with task := some (.stream ⟨awaits, h.exit.result h.request⟩) } := by
        rw [Handled.poll, htask]
      rw [hpoll]
      exact .stream hdrops rfl hhistory hbuilt
  | answered hdrops htask hhistory =>
    have hpoll : h.poll empty = h := by rw [Handled.poll, htask]
    rw [hpoll]
    exact .answered hdrops htask hhistory
  | dropped hdrops hhistory =>
    obtain ⟨more, hmore⟩ := @Handled.poll_history _ empty h
    have hexit : (h.poll empty).exit = h.exit := h.poll_exit
    refine .dropped (hexit ▸ hdrops) ?_
    rw [hmore]
    exact List.mem_append_left _ hhistory

/-- A request is answered once, unless its responder is dropped. -/
lemma Stands.answered_iff_not_drops (hstands : Stands empty h) : AnsweredOnce empty h ↔ ¬ h.exit.Drops := by
  cases hstands with
  | context hdrops htask hhistory | stream hdrops htask hhistory =>
    exact iff_of_true (Or.inl ⟨by rw [htask]; exact nofun, hhistory⟩) hdrops
  | answered hdrops htask hhistory => exact iff_of_true (Or.inr ⟨htask, hhistory⟩) hdrops
  | dropped hdrops hhistory =>
    refine iff_of_false ?_ (not_not_intro hdrops)
    rintro (⟨-, heq⟩ | ⟨-, heq⟩)
    · rw [heq] at hhistory
      exact List.not_mem_nil hhistory
    · rw [heq] at hhistory
      simp at hhistory

/-- The responder of a cancelled task is gone, and the history says why. -/
lemma Handled.cancel_cases (h : Handled ρ) :
    h.cancel = h ∨ .cancelled ∈ h.cancel.history := by
  unfold Handled.cancel
  split
  · exact Or.inl rfl
  all_goals exact Or.inr (List.mem_append_right _ List.mem_cons_self)

/-- What holds of every request that was dispatched. -/
def Sound (empty : ρ) (h : Handled ρ) : Prop :=
  h.exit.NoTailCall → .cancelled ∉ h.history → Stands empty h

lemma Sound.poll (hsound : Sound empty h) : Sound empty (h.poll empty) := by
  intro htail hcancel
  rw [h.poll_exit] at htail
  obtain ⟨more, hmore⟩ := @Handled.poll_history _ empty h
  refine (hsound htail fun hmem => hcancel ?_).poll
  rw [hmore]
  exact List.mem_append_left _ hmem

lemma Sound.cancel (hsound : Sound empty h) : Sound empty h.cancel := by
  intro htail hcancel
  rcases h.cancel_cases with hsame | hmem
  · rw [hsame] at htail hcancel ⊢
    exact hsound htail hcancel
  · exact absurd hmem hcancel

end Handled

/-! ## Every run -/

section Runs

variable {ρ : Type} {empty : ρ} {s : Server} {k : Handling ρ} {h : Handled ρ}

lemma forall_update {P : Handled ρ → Prop} (hk : ∀ id h, k id = some h → P h) {id : RequestId}
    {o : Option (Handled ρ)} (ho : ∀ h, o = some h → P h) :
    ∀ id' h, Function.update k id o id' = some h → P h := by
  intro id' h hid'
  by_cases hne : id' = id
  · subst hne
    rw [Function.update_self] at hid'
    exact ho h hid'
  · rw [Function.update_of_ne hne] at hid'
    exact hk id' h hid'

/-- The dispatcher's own rules hold, every request stands as it should, and was dispatched. -/
lemma Run.sound (hrun : Run empty s k) :
    Whole s ∧ (∀ id h, k id = some h → Sound empty h) ∧
      ∀ id, k id ≠ none → id ∈ dispatched s.log := by
  have hwhole : ∀ {s s' : Server} {step : Step}, Whole s → step.prog s = .ok () s' → Whole s' := by
    intro s s' step hs hstep
    obtain ⟨s'', hstep', hs'', -⟩ := hs.step step
    rw [hstep] at hstep'
    cases hstep'
    exact hs''
  induction hrun with
  | new => exact ⟨whole_new, by rintro _ _ ⟨⟩, fun _ hne => absurd rfl hne⟩
  | dispatcher _ step hstep hsame ih =>
    obtain ⟨hs, hk, hids⟩ := ih
    refine ⟨hwhole hs hstep, hk, fun id hne => ?_⟩
    rw [hsame]
    exact hids id hne
  | panicked _ id ready hstep hnew ih =>
    obtain ⟨hs, hk, hids⟩ := ih
    refine ⟨hwhole hs hstep, hk, fun id hne => ?_⟩
    rw [hnew]
    exact List.mem_append_left _ (hids id hne)
  | @dispatch s s' k _ request exit ready hstep hnew ih =>
    obtain ⟨hs, hk, hids⟩ := ih
    refine ⟨hwhole hs hstep, forall_update hk fun h hsome => ?_, fun id hne => ?_⟩
    · cases hsome
      exact fun htail _ => stands_dispatch request exit htail
    · rw [hnew]
      by_cases hid : id = request.id
      · exact List.mem_append_right _ (hid ▸ List.mem_cons_self)
      · rw [Function.update_of_ne hid] at hne
        exact List.mem_append_left _ (hids id hne)
  | @poll s k _ id ih =>
    obtain ⟨hs, hk, hids⟩ := ih
    refine ⟨hs, forall_update hk fun h hsome => ?_, fun id' hne => hids id' fun hnone => hne ?_⟩
    · obtain ⟨h', hh', rfl⟩ := Option.map_eq_some_iff.mp hsome
      exact (hk id h' hh').poll
    · by_cases hid : id' = id
      · rw [hid, Function.update_self, ← hid, hnone, Option.map_none]
      · rw [Function.update_of_ne hid, hnone]
  | @cancel s k _ id ih =>
    obtain ⟨hs, hk, hids⟩ := ih
    refine ⟨hs, forall_update hk fun h hsome => ?_, fun id' hne => hids id' fun hnone => hne ?_⟩
    · obtain ⟨h', hh', rfl⟩ := Option.map_eq_some_iff.mp hsome
      exact (hk id h' hh').cancel
    · by_cases hid : id' = id
      · rw [hid, Function.update_self, ← hid, hnone, Option.map_none]
      · rw [Function.update_of_ne hid, hnone]

/-- **Every dispatched request is answered once**, with what its handler came to and when it is done,
unless the handler makes a tail call or its task is cancelled: of all the ways to end a request just
those do not that drop its responder. -/
theorem Run.answeredOnce_iff (hrun : Run empty s k) {id : RequestId} (hid : k id = some h)
    (htail : h.exit.NoTailCall) (hcancel : .cancelled ∉ h.history) :
    AnsweredOnce empty h ↔ ¬ h.exit.Drops :=
  (hrun.sound.2.1 id h hid htail hcancel).answered_iff_not_drops

end Runs

/-! ## What the caller gets -/

section Caller

variable {ρ : Type}

/-- What comes for a request: a response, or `none` when the responder was dropped. -/
def received : List (Happened ρ) → Option (Option (Except Error ρ))
  | [] => none
  | .responded response :: _ => some (some response)
  | .dropped :: _ => some none
  | _ :: history => received history

/-- `dropped_request`. -/
def droppedRequest : Error :=
  .disconnected "request was dropped before it could be responded to"

/-- What `StreamingRequest::send` returns, when something came. -/
def StreamingRequest.send (history : List (Happened ρ)) : Option (Except Error Unit) :=
  (received history).map fun response =>
    match response with
    | none => .error droppedRequest
    | some (.error err) => .error err
    | some (.ok _) => .ok ()

end Caller

/-! ## A server with one request -/

/-- `respond_with` of a streaming request, with a function that returns `Ok`: the request is dropped,
and the caller gets an error. -/
theorem streamRespondWith_not_answeredOnce :
    ∃ (s : Server) (k : Handling ℕ) (h : Handled ℕ), Run 0 s k ∧ k 0 = some h ∧
      h.exit.NoTailCall ∧ .cancelled ∉ h.history ∧ h.exit.result h.request = .ok () ∧
      ¬ AnsweredOnce 0 h ∧ StreamingRequest.send h.history = some (.error droppedRequest) := by
  have hsend := (@Run.new ℕ 0).dispatcher .send rfl rfl
  have honce := hsend.dispatcher .runOnce rfl rfl
  have hdispatch := honce.dispatch ⟨0, 0, 0⟩ (.streamRespondWith (.ok ())) none rfl rfl
  refine ⟨_, _, _, hdispatch, Function.update_self .., nofun, ?_, rfl, ?_, rfl⟩
  · intro hmem
    cases hmem with
    | tail _ hmem => cases hmem with | tail _ hmem => cases hmem
  · rintro (⟨htask, -⟩ | ⟨-, hhistory⟩)
    · exact htask rfl
    · cases hhistory

/-- A handler that waits once, and builds its results before and after: they are the response. -/
theorem Run.answeredOnce_iff_spawnWith : ∃ (s : Server) (k : Handling ℕ) (h : Handled ℕ),
    Run 0 s k ∧ k 0 = some h ∧
      h.history = [.completed (.ok ()) (some 3), .responded (.ok 3)] ∧
      (AnsweredOnce 0 h ↔ ¬ h.exit.Drops) := by
  have hsend := (@Run.new ℕ 0).dispatcher .send rfl rfl
  have honce := hsend.dispatcher .runOnce rfl rfl
  have hdispatch := honce.dispatch ⟨0, 0, 0⟩
    (.spawnWith ⟨[.results (· + 1)], [[.results (· + 2)]], .ok ()⟩) none rfl rfl
  have hpoll := hdispatch.poll 0
  have hdone := hpoll.poll 0
  refine ⟨_, _, _, hdone, rfl, rfl, @Run.answeredOnce_iff _ _ _ _ _ hdone 0 rfl ?_ ?_⟩
  · intro hmem
    cases hmem with
    | tail _ hmem => cases hmem with | tail _ hmem => cases hmem
  · intro hmem
    cases hmem with
    | tail _ hmem => cases hmem with | tail _ hmem => cases hmem

end Recapn.Rpc
