/-
# The relay of a received capability

A capability that was received over a connection has a channel of its own.  `ReceivedCap::handle`
takes the items out of the channel and sends them to the connection as calls, until the capability
is resolved or its channel is closed.  When it resolves to another channel before any item was
relayed, its channel is forwarded there; else it is handed to the connection, behind the calls.

The relay races two sources, and what it sends to may be full.  The items stay in order whatever
wins the race (`Reached.keepsOrder`).
-/
import Recapn.Rpc.Dispatcher

namespace Recapn.Rpc

/-! ## What is sent to the connection -/

abbrev ImportId := ℕ

abbrev QuestionId := ℕ

/-- `PipelineOp`. -/
inductive PipelineOp where
  | ptrField (field : ℕ)
deriving DecidableEq, Repr

/-- `CapTarget`. -/
inductive CapTarget where
  | imported (id : ImportId)
  | promisedAnswer (question : QuestionId) (ops : List PipelineOp)
deriving DecidableEq, Repr

/-- Other channels are numbered. -/
abbrev ClientId := ℕ

/-- `CapEvent`.  The inbound receiver of a `Disembargo` is that of the relay's own channel. -/
inductive CapEvent (ι : Type) where
  | call (item : ι)
  | disembargo (outbound : ClientId)
  | finished
deriving DecidableEq

/-- `CapMessage`. -/
structure CapMessage (ι : Type) where
  target : CapTarget
  event : CapEvent ι
deriving DecidableEq

/-- `CapResolution`. -/
inductive CapResolution where
  | broken (err : Error)
  | resolve (client : ClientId)
deriving DecidableEq

/-! ## The state -/

/-- The oneshot that the resolution comes through. -/
inductive Oneshot where
  | pending
  | sent (resolution : CapResolution)
  /-- The sender is gone, and the receiver was not polled since. -/
  | dropped
  /-- The receiver has given its value, or that there will be none. -/
  | completed
deriving DecidableEq

/-- Where the receiver of the channel is. -/
inductive Holder where
  | relay
  /-- In a `Disembargo`. -/
  | message
  | closed (err : Error)
  | forwarded (client : ClientId)
  | gone
deriving DecidableEq

/-- Where `handle` is suspended. -/
inductive HandlePhase (ι : Type) where
  /-- In `select!`, with the branch of the resolution disabled or not. -/
  | selecting (disabled : Bool)
  /-- A call is being sent, and then the loop goes on. -/
  | sending (msg : CapMessage ι)
  /-- A message is being sent, and then the loop ends. -/
  | last (msg : CapMessage ι)
  | done
  | panicked
deriving DecidableEq

/-- What `forward_to` finds the other channel to be. -/
inductive Forwarding where
  | open
  | dropped
  | error (err : Error)
  | itself
deriving DecidableEq

/-- The relay with its channel, its resolution, and the queue to the connection. -/
structure ReceivedCap (ι : Type) where
  target : CapTarget
  -- the channel: the items in it, whether `recv` finds it closed, and its receiver
  queue : List ι
  isClosed : Bool
  inbound : Holder
  resolution : Oneshot
  handledMessage : Bool
  phase : HandlePhase ι
  outbound : List (CapMessage ι)
  /-- The connection has its end of the queue. -/
  isOpen : Bool
  -- what happened
  /-- The items that were put into the channel. -/
  sent : List ι
  /-- The items that came out of `recv`. -/
  received : List ι
  /-- What was put into the queue to the connection. -/
  emitted : List (CapMessage ι)
  taken : List (CapMessage ι)
  /-- The items that went to the channel that this one was forwarded to. -/
  forwarded : List ι

namespace ReceivedCap

variable {ι : Type}

/-- The capacity of the queue to the connection. -/
def capacity : ℕ := 8

/-- `ReceivedCap` when `handle` is called. -/
def new (target : CapTarget) : ReceivedCap ι where
  target := target
  queue := []
  isClosed := false
  inbound := .relay
  resolution := .pending
  handledMessage := false
  phase := .selecting false
  outbound := []
  isOpen := true
  sent := []
  received := []
  emitted := []
  taken := []
  forwarded := []

/-- The loop ends, and what the relay still holds is dropped. -/
def finish (r : ReceivedCap ι) (phase : HandlePhase ι) : ReceivedCap ι :=
  match r.inbound with
  | .relay => { r with phase := phase, inbound := .gone, queue := [] }
  | _ => { r with phase := phase }

/-- `Receiver::close`. -/
def close (r : ReceivedCap ι) (err : Error) : ReceivedCap ι :=
  { r with inbound := .closed err, queue := [] }

/-- `Receiver::forward_to`, and closing the channel when that gives the receiver back. -/
def forwardTo (r : ReceivedCap ι) (client : ClientId) : Forwarding → ReceivedCap ι
  | .open => { r with
      inbound := .forwarded client
      queue := []
      forwarded := r.forwarded ++ r.queue }
  | .dropped => { r with inbound := .gone, queue := [] }
  | .error err => r.close err
  | .itself => r.close (.failed "resolved a capability into itself")

/-- `Sender::send` on the queue to the connection, when it has room. -/
def emit (r : ReceivedCap ι) (msg : CapMessage ι) : ReceivedCap ι :=
  { r with outbound := r.outbound ++ [msg], emitted := r.emitted ++ [msg] }

/-- An item is sent on the capability. -/
def send (r : ReceivedCap ι) (item : ι) : ReceivedCap ι :=
  match r.inbound with
  | .relay => { r with queue := r.queue ++ [item], sent := r.sent ++ [item] }
  | .message => { r with queue := r.queue ++ [item], sent := r.sent ++ [item] }
  | .forwarded _ => { r with forwarded := r.forwarded ++ [item], sent := r.sent ++ [item] }
  | .closed _ => r
  | .gone => r

/-- A step of the senders, the resolver, the connection, or the relay. -/
inductive Step : ReceivedCap ι → ReceivedCap ι → Prop
  | send {r : ReceivedCap ι} (item : ι) : Step r (r.send item)
  | closeSenders {r : ReceivedCap ι} : Step r { r with isClosed := true }
  | resolve {r : ReceivedCap ι} (resolution : CapResolution) (h : r.resolution = .pending) :
      Step r { r with resolution := .sent resolution }
  | dropResolver {r : ReceivedCap ι} (h : r.resolution = .pending) :
      Step r { r with resolution := .dropped }
  | take {r : ReceivedCap ι} {msg : CapMessage ι} {rest : List (CapMessage ι)} (hopen : r.isOpen = true)
      (h : r.outbound = msg :: rest) : Step r { r with outbound := rest, taken := r.taken ++ [msg] }
  | closeQueue {r : ReceivedCap ι} : Step r { r with isOpen := false }
  -- the branch of the resolution
  | broken {r : ReceivedCap ι} {err : Error} (hphase : r.phase = .selecting false)
      (h : r.resolution = .sent (.broken err)) :
      Step r (({ r with resolution := .completed }.close err).finish .done)
  | forward {r : ReceivedCap ι} {client : ClientId} (found : Forwarding)
      (hphase : r.phase = .selecting false) (h : r.resolution = .sent (.resolve client))
      (hfirst : r.handledMessage = false) :
      Step r (({ r with resolution := .completed }.forwardTo client found).finish .done)
  | disembargo {r : ReceivedCap ι} {client : ClientId} (hphase : r.phase = .selecting false)
      (h : r.resolution = .sent (.resolve client)) (hfirst : r.handledMessage = true) :
      Step r { r with
        resolution := .completed
        inbound := .message
        phase := .last ⟨r.target, .disembargo client⟩ }
  | noResolution {r : ReceivedCap ι} (hphase : r.phase = .selecting false)
      (h : r.resolution = .dropped) :
      Step r { r with resolution := .completed, phase := .selecting true }
  /-- The oneshot is polled again after it has given its value. -/
  | again {r : ReceivedCap ι} (hphase : r.phase = .selecting false) (h : r.resolution = .completed) :
      Step r (r.finish .panicked)
  -- the branch of the channel
  | recv {r : ReceivedCap ι} {disabled : Bool} {item : ι} {rest : List ι}
      (hphase : r.phase = .selecting disabled) (hclosed : r.isClosed = false)
      (h : r.queue = item :: rest) :
      Step r { r with
        queue := rest
        received := r.received ++ [item]
        handledMessage := true
        phase := .sending ⟨r.target, .call item⟩ }
  | recvNone {r : ReceivedCap ι} {disabled : Bool} (hphase : r.phase = .selecting disabled)
      (hclosed : r.isClosed = true) : Step r { r with phase := .last ⟨r.target, .finished⟩ }
  -- the awaits of the queue to the connection
  | sendCall {r : ReceivedCap ι} {msg : CapMessage ι} (hphase : r.phase = .sending msg)
      (hopen : r.isOpen = true) (hroom : r.outbound.length < capacity) :
      Step r { r.emit msg with phase := .selecting false }
  | sendCallFails {r : ReceivedCap ι} {msg : CapMessage ι} (hphase : r.phase = .sending msg)
      (hopen : r.isOpen = false) : Step r { r with phase := .selecting false }
  | sendLast {r : ReceivedCap ι} {msg : CapMessage ι} (hphase : r.phase = .last msg)
      (hopen : r.isOpen = true) (hroom : r.outbound.length < capacity) :
      Step r ((r.emit msg).finish .done)
  | disembargoFails {r : ReceivedCap ι} {target : CapTarget} {client : ClientId} (found : Forwarding)
      (hphase : r.phase = .last ⟨target, .disembargo client⟩) (hopen : r.isOpen = false) :
      Step r ((r.forwardTo client found).finish .done)
  | finishedFails {r : ReceivedCap ι} {target : CapTarget}
      (hphase : r.phase = .last ⟨target, .finished⟩) (hopen : r.isOpen = false) :
      Step r (r.finish .done)

/-- What is reached by steps in any order. -/
inductive Reached (target : CapTarget) : ReceivedCap ι → Prop
  | new : Reached target (new target)
  | step {r r' : ReceivedCap ι} (h : Reached target r) (hstep : Step r r') : Reached target r'

/-! ## What should hold -/

/-- The item that was received and is on its way to the connection. -/
def onItsWay : HandlePhase ι → List ι
  | .sending ⟨_, .call item⟩ => [item]
  | _ => []

/-- Calls for items, to a target. -/
def calls (target : CapTarget) (items : List ι) : List (CapMessage ι) :=
  items.map fun item => ⟨target, .call item⟩

/-- The last message, if there is one. -/
inductive IsLast (target : CapTarget) : List (CapMessage ι) → Prop
  | none : IsLast target []
  | disembargo (client : ClientId) : IsLast target [⟨target, .disembargo client⟩]
  | finished : IsLast target [⟨target, .finished⟩]

/-- The relay keeps the order of the items. -/
structure KeepsOrder (target : CapTarget) (r : ReceivedCap ι) : Prop where
  /-- The calls are the items that were received, in order, but for the one on its way; they are
  followed by one message at most, and then the relay is at its end. -/
  emitted : ∃ items last, r.emitted = calls target items ++ last ∧ IsLast target last ∧
    r.received = items ++ onItsWay r.phase ∧ (last ≠ [] → r.phase = .done)
  /-- The connection takes them in the same order. -/
  taken : r.emitted = r.taken ++ r.outbound
  /-- As long as the relay has the channel, or the connection is given it, the items are those
  received and then those in the channel. -/
  order : r.inbound = .relay ∨ r.inbound = .message → r.sent = r.received ++ r.queue
  /-- Before a `Disembargo` all items that were received are calls. -/
  disembargo : ∀ client, ⟨target, .disembargo client⟩ ∈ r.emitted →
    r.emitted = calls target r.received ++ [⟨target, .disembargo client⟩] ∧ r.inbound = .message
  /-- The channel is forwarded only if no item was received, and then it has all items. -/
  forwarded : ∀ client, r.inbound = .forwarded client →
    r.emitted = [] ∧ r.received = [] ∧ r.forwarded = r.sent

/-! ## What holds in every run -/

variable {target : CapTarget} {r r' : ReceivedCap ι}

/-- What was emitted, and where the receiver is, at each point of `handle`. -/
def AtPhase (target : CapTarget) (r : ReceivedCap ι) : Prop :=
  match r.phase with
  | .selecting _ => r.emitted = calls target r.received ∧ r.inbound = .relay
  | .sending msg => r.inbound = .relay ∧ ∃ item items, msg = ⟨target, .call item⟩ ∧
      r.received = items ++ [item] ∧ r.emitted = calls target items
  | .last msg => r.emitted = calls target r.received ∧
      (msg = ⟨target, .finished⟩ ∧ r.inbound = .relay ∨
        ∃ client, msg = ⟨target, .disembargo client⟩ ∧ r.inbound = .message)
  | .done => (r.emitted = calls target r.received ∧ r.inbound ≠ .relay ∧ r.inbound ≠ .message) ∨
      (r.emitted = calls target r.received ++ [⟨target, .finished⟩] ∧ r.inbound = .gone) ∨
      ∃ client, r.emitted = calls target r.received ++ [⟨target, .disembargo client⟩] ∧
        r.inbound = .message
  | .panicked => r.emitted = calls target r.received ∧ r.inbound = .gone

@[simp] lemma calls_append (target : CapTarget) (items items' : List ι) :
    calls target (items ++ items') = calls target items ++ calls target items' := by
  simp [calls]

/-- Where the items are that were sent. -/
def ItemsKept (r : ReceivedCap ι) : Prop :=
  match r.inbound with
  | .relay => r.sent = r.received ++ r.queue ∧ r.forwarded = []
  | .message => r.sent = r.received ++ r.queue ∧ r.forwarded = []
  | .forwarded _ => r.received = [] ∧ r.forwarded = r.sent
  | _ => True

/-- What holds as long as the queue to the connection is open. -/
structure Inv (target : CapTarget) (r : ReceivedCap ι) : Prop where
  same : r.target = target
  phase : AtPhase target r
  first : r.handledMessage = false → r.received = []
  taken : r.emitted = r.taken ++ r.outbound
  kept : ItemsKept r

lemma Inv.new : Inv target (new target : ReceivedCap ι) where
  same := rfl
  phase := ⟨rfl, rfl⟩
  first _ := rfl
  taken := rfl
  kept := ⟨rfl, rfl⟩

/-- An item that is sent goes to the end of the channel, or of the one that it was forwarded to. -/
lemma ItemsKept.send (h : ItemsKept r) (item : ι) : ItemsKept (r.send item) := by
  unfold ItemsKept at h
  unfold ReceivedCap.send
  cases hinbound : r.inbound with
  | relay | message =>
    rw [hinbound] at h
    simp only [ItemsKept]
    exact ⟨by rw [h.1, List.append_assoc], h.2⟩
  | forwarded client =>
    rw [hinbound] at h
    simp only [ItemsKept]
    exact ⟨h.1, by rw [h.2]⟩
  | closed err | gone => simp [ItemsKept, hinbound]

lemma Inv.send (h : Inv target r) (item : ι) : Inv target (r.send item) := by
  have hkept := h.kept.send item
  have hsame : (r.send item).target = r.target ∧ (r.send item).phase = r.phase ∧
      (r.send item).inbound = r.inbound ∧ (r.send item).emitted = r.emitted ∧
      (r.send item).received = r.received ∧ (r.send item).handledMessage = r.handledMessage ∧
      (r.send item).taken = r.taken ∧ (r.send item).outbound = r.outbound := by
    unfold ReceivedCap.send
    split <;> exact ⟨rfl, rfl, rfl, rfl, rfl, rfl, rfl, rfl⟩
  obtain ⟨htarget, hphase, hinbound, hemitted, hreceived, hhandled, htaken, houtbound⟩ := hsame
  refine ⟨htarget.trans h.same, ?_, ?_, ?_, hkept⟩
  · unfold AtPhase
    rw [hphase, hinbound, hemitted, hreceived]
    exact h.phase
  · rw [hhandled, hreceived]
    exact h.first
  · rw [hemitted, htaken, houtbound]
    exact h.taken

section Relay

variable {client : ClientId} {err : Error} {disabled : Bool}

/-- The channel is closed, and the loop ends. -/
lemma Inv.close (h : Inv target r) (hphase : r.phase = .selecting disabled)
    (resolution : Oneshot) (err : Error) :
    Inv target (({ r with resolution := resolution }.close err).finish .done) := by
  have hat := h.phase
  rw [AtPhase, hphase] at hat
  exact ⟨h.same, Or.inl ⟨hat.1, nofun, nofun⟩, h.first, h.taken, trivial⟩

/-- The channel is forwarded, when nothing was received, and the loop ends. -/
lemma Inv.forward (h : Inv target r) (hphase : r.phase = .selecting disabled)
    (hfirst : r.handledMessage = false) (found : Forwarding) :
    Inv target (({ r with resolution := .completed }.forwardTo client found).finish .done) := by
  have hat := h.phase
  rw [AtPhase, hphase] at hat
  obtain ⟨hemitted, hinbound⟩ := hat
  cases found with
  | «open» =>
    have hkept := h.kept
    rw [ItemsKept, hinbound] at hkept
    have hreceived := h.first hfirst
    refine ⟨h.same, Or.inl ⟨hemitted, nofun, nofun⟩, h.first, h.taken, hreceived, ?_⟩
    show r.forwarded ++ r.queue = r.sent
    rw [hkept.1, hkept.2, hreceived]
  | dropped => exact ⟨h.same, Or.inl ⟨hemitted, nofun, nofun⟩, h.first, h.taken, trivial⟩
  | error err => exact h.close hphase .completed err
  | itself => exact h.close hphase .completed _

/-- The loop ends without the channel. -/
lemma Inv.again (h : Inv target r) (hphase : r.phase = .selecting disabled) :
    Inv target (r.finish .panicked) := by
  have hat := h.phase
  rw [AtPhase, hphase] at hat
  have hfinish : r.finish .panicked = { r with phase := .panicked, inbound := .gone, queue := [] } := by
    rw [finish, hat.2]
  rw [hfinish]
  exact ⟨h.same, ⟨hat.1, rfl⟩, h.first, h.taken, trivial⟩

/-- The channel goes to the connection. -/
lemma Inv.disembargo (h : Inv target r) (hphase : r.phase = .selecting disabled)
    (client : ClientId) :
    Inv target { r with
      resolution := .completed
      inbound := .message
      phase := .last ⟨r.target, .disembargo client⟩ } := by
  have hat := h.phase
  rw [AtPhase, hphase] at hat
  have hkept := h.kept
  rw [ItemsKept, hat.2] at hkept
  exact ⟨h.same, ⟨hat.1, Or.inr ⟨client, by rw [h.same], rfl⟩⟩, h.first, h.taken, hkept⟩

/-- An item is received. -/
lemma Inv.recv (h : Inv target r) (hphase : r.phase = .selecting disabled) {item : ι}
    {rest : List ι} (hqueue : r.queue = item :: rest) :
    Inv target { r with
      queue := rest
      received := r.received ++ [item]
      handledMessage := true
      phase := .sending ⟨r.target, .call item⟩ } := by
  have hat := h.phase
  rw [AtPhase, hphase] at hat
  have hkept := h.kept
  rw [ItemsKept, hat.2, hqueue] at hkept
  refine ⟨h.same, ⟨hat.2, item, r.received, by rw [h.same], rfl, hat.1⟩, nofun, h.taken, ?_⟩
  simp only [ItemsKept, hat.2]
  exact ⟨by rw [hkept.1, List.append_assoc]; rfl, hkept.2⟩

/-- The call for an item is emitted. -/
lemma Inv.sendCall (h : Inv target r) {msg : CapMessage ι} (hphase : r.phase = .sending msg) :
    Inv target { r.emit msg with phase := .selecting false } := by
  have hat := h.phase
  rw [AtPhase, hphase] at hat
  obtain ⟨hinbound, item, items, rfl, hreceived, hemitted⟩ := hat
  refine ⟨h.same, ⟨?_, hinbound⟩, h.first, ?_, h.kept⟩
  · show r.emitted ++ [_] = calls target r.received
    rw [hemitted, hreceived, calls_append]
    rfl
  · show r.emitted ++ _ = r.taken ++ (r.outbound ++ _)
    rw [h.taken, List.append_assoc]

/-- The last message is emitted. -/
lemma Inv.sendLast (h : Inv target r) {msg : CapMessage ι} (hphase : r.phase = .last msg) :
    Inv target ((r.emit msg).finish .done) := by
  have hat := h.phase
  rw [AtPhase, hphase] at hat
  obtain ⟨hemitted, ⟨rfl, hinbound⟩ | ⟨client, rfl, hinbound⟩⟩ := hat
  · have hfinish : (r.emit ⟨target, .finished⟩).finish .done = { r.emit ⟨target, .finished⟩ with
        phase := .done, inbound := .gone, queue := [] } := by
      rw [finish, emit, hinbound]
    rw [hfinish]
    refine ⟨h.same, Or.inr (Or.inl ⟨?_, rfl⟩), h.first, ?_, trivial⟩
    · show r.emitted ++ _ = _
      rw [hemitted]
      rfl
    · show r.emitted ++ _ = r.taken ++ (r.outbound ++ _)
      rw [h.taken, List.append_assoc]
  · have hfinish : (r.emit ⟨target, .disembargo client⟩).finish .done =
        { r.emit ⟨target, .disembargo client⟩ with phase := .done } := by
      rw [finish, emit, hinbound]
    rw [hfinish]
    refine ⟨h.same, Or.inr (Or.inr ⟨client, ?_, hinbound⟩), h.first, ?_, h.kept⟩
    · show r.emitted ++ _ = _
      rw [hemitted]
      rfl
    · show r.emitted ++ _ = r.taken ++ (r.outbound ++ _)
      rw [h.taken, List.append_assoc]

/-- The step of another party: what the relay looks at is the same. -/
lemma Inv.withResolution (h : Inv target r) (resolution : Oneshot) :
    Inv target { r with resolution := resolution } := ⟨h.same, h.phase, h.first, h.taken, h.kept⟩

@[simp] lemma isOpen_finish (r : ReceivedCap ι) (phase : HandlePhase ι) :
    (r.finish phase).isOpen = r.isOpen := by
  unfold finish
  split <;> rfl

@[simp] lemma isOpen_forwardTo (r : ReceivedCap ι) (client : ClientId) (found : Forwarding) :
    (r.forwardTo client found).isOpen = r.isOpen := by
  cases found <;> rfl

@[simp] lemma isOpen_send (r : ReceivedCap ι) (item : ι) : (r.send item).isOpen = r.isOpen := by
  unfold ReceivedCap.send
  split <;> rfl

/-- The queue to the connection is not opened again. -/
lemma isOpen_of_step (hstep : Step r r') (hopen : r'.isOpen = true) : r.isOpen = true := by
  cases hstep with
  | closeQueue => cases hopen
  | send | broken | forward | again | sendLast | disembargoFails | finishedFails =>
    simpa [ReceivedCap.close, emit] using hopen
  | _ => exact hopen

/-- A step keeps what holds, as long as the queue to the connection is open. -/
lemma Inv.step (h : Inv target r) (hstep : Step r r') (hopen : r'.isOpen = true) :
    Inv target r' := by
  cases hstep with
  | send item => exact h.send item
  | closeSenders => exact ⟨h.same, h.phase, h.first, h.taken, h.kept⟩
  | resolve resolution _ | dropResolver _ => exact h.withResolution _
  | @take msg rest _ hqueue =>
    refine ⟨h.same, h.phase, h.first, ?_, h.kept⟩
    show r.emitted = r.taken ++ [msg] ++ rest
    rw [h.taken, hqueue, List.append_assoc]
    rfl
  | closeQueue => cases hopen
  | broken hphase _ => exact h.close hphase _ _
  | forward found hphase _ hfirst => exact h.forward hphase hfirst found
  | disembargo hphase _ _ => exact h.disembargo hphase _
  | noResolution hphase _ =>
    have hat := h.phase
    rw [AtPhase, hphase] at hat
    exact ⟨h.same, hat, h.first, h.taken, h.kept⟩
  | again hphase _ => exact h.again hphase
  | recv hphase _ hqueue => exact h.recv hphase hqueue
  | recvNone hphase _ =>
    have hat := h.phase
    rw [AtPhase, hphase] at hat
    exact ⟨h.same, ⟨hat.1, Or.inl ⟨by rw [h.same], hat.2⟩⟩, h.first, h.taken, h.kept⟩
  | sendCall hphase _ _ => exact h.sendCall hphase
  | sendCallFails _ hclosed => exact nomatch hclosed.symm.trans hopen
  | sendLast hphase _ _ => exact h.sendLast hphase
  | disembargoFails found _ hclosed =>
    rw [isOpen_finish, isOpen_forwardTo, hclosed] at hopen
    cases hopen
  | finishedFails _ hclosed =>
    rw [isOpen_finish, hclosed] at hopen
    cases hopen

end Relay

lemma Reached.inv (h : Reached target r) (hopen : r.isOpen = true) : Inv target r := by
  induction h with
  | new => exact Inv.new
  | step _ hstep ih => exact (ih (isOpen_of_step hstep hopen)).step hstep hopen

/-- A call is not the last message. -/
lemma not_mem_calls (client : ClientId) (items : List ι) :
    ⟨target, .disembargo client⟩ ∉ calls target items := by
  simp [calls]

lemma Inv.emitted (h : Inv target r) :
    ∃ items last, r.emitted = calls target items ++ last ∧ IsLast target last ∧
      r.received = items ++ onItsWay r.phase ∧ (last ≠ [] → r.phase = .done) := by
  have hat := h.phase
  rw [AtPhase] at hat
  have hnone : ∀ {items : List ι}, r.emitted = calls target items →
      r.emitted = calls target items ++ [] := fun heq => by rw [heq, List.append_nil]
  cases hphase : r.phase with
  | selecting disabled =>
    rw [hphase] at hat
    exact ⟨r.received, [], hnone hat.1, .none, (List.append_nil _).symm, fun hne => absurd rfl hne⟩
  | sending msg =>
    rw [hphase] at hat
    obtain ⟨-, item, items, rfl, hreceived, hemitted⟩ := hat
    exact ⟨items, [], hnone hemitted, .none, hreceived, fun hne => absurd rfl hne⟩
  | last msg =>
    rw [hphase] at hat
    exact ⟨r.received, [], hnone hat.1, .none, (List.append_nil _).symm, fun hne => absurd rfl hne⟩
  | done =>
    rw [hphase] at hat
    rcases hat with ⟨hemitted, -⟩ | ⟨hemitted, -⟩ | ⟨client, hemitted, -⟩
    · exact ⟨r.received, [], hnone hemitted, .none, (List.append_nil _).symm, fun _ => rfl⟩
    · exact ⟨r.received, _, hemitted, .finished, (List.append_nil _).symm, fun _ => rfl⟩
    · exact ⟨r.received, _, hemitted, .disembargo client, (List.append_nil _).symm, fun _ => rfl⟩
  | panicked =>
    rw [hphase] at hat
    exact ⟨r.received, [], hnone hat.1, .none, (List.append_nil _).symm, fun hne => absurd rfl hne⟩

/-- A `Disembargo` comes last, and with the channel. -/
lemma Inv.disembargo_of_mem (h : Inv target r) {client : ClientId}
    (hmem : ⟨target, .disembargo client⟩ ∈ r.emitted) :
    r.emitted = calls target r.received ++ [⟨target, .disembargo client⟩] ∧
      r.inbound = .message := by
  have hat := h.phase
  rw [AtPhase] at hat
  have hcalls : ∀ {items : List ι}, r.emitted ≠ calls target items := fun heq =>
    not_mem_calls client _ (heq ▸ hmem)
  cases hphase : r.phase with
  | selecting disabled =>
    rw [hphase] at hat
    exact absurd hat.1 hcalls
  | sending msg =>
    rw [hphase] at hat
    obtain ⟨-, item, items, -, -, hemitted⟩ := hat
    exact absurd hemitted hcalls
  | last msg =>
    rw [hphase] at hat
    exact absurd hat.1 hcalls
  | done =>
    rw [hphase] at hat
    rcases hat with ⟨hemitted, -⟩ | ⟨hemitted, -⟩ | ⟨client', hemitted, hinbound⟩
    · exact absurd hemitted hcalls
    · rw [hemitted] at hmem
      rcases List.mem_append.mp hmem with hmem | hmem
      · exact absurd hmem (not_mem_calls _ _)
      · simp at hmem
    · rw [hemitted] at hmem
      rcases List.mem_append.mp hmem with hmem | hmem
      · exact absurd hmem (not_mem_calls _ _)
      · obtain rfl : client = client' := by simpa using hmem
        exact ⟨hemitted, hinbound⟩
  | panicked =>
    rw [hphase] at hat
    exact absurd hat.1 hcalls

/-- A channel that was forwarded was forwarded by a relay that emitted nothing. -/
lemma Inv.forwarded (h : Inv target r) {client : ClientId} (hinbound : r.inbound = .forwarded client) :
    r.emitted = [] ∧ r.received = [] ∧ r.forwarded = r.sent := by
  have hkept := h.kept
  rw [ItemsKept, hinbound] at hkept
  have hat := h.phase
  rw [AtPhase] at hat
  refine ⟨?_, hkept⟩
  cases hphase : r.phase with
  | selecting disabled =>
    rw [hphase, hinbound] at hat
    exact nomatch hat.2
  | sending msg =>
    rw [hphase, hinbound] at hat
    exact nomatch hat.1
  | last msg =>
    rw [hphase, hinbound] at hat
    obtain ⟨-, ⟨-, heq⟩ | ⟨_, -, heq⟩⟩ := hat
    · exact nomatch heq
    · exact nomatch heq
  | done =>
    rw [hphase, hinbound] at hat
    rcases hat with ⟨hemitted, -⟩ | ⟨-, heq⟩ | ⟨_, -, heq⟩
    · rw [hemitted, hkept.1]
      rfl
    · exact nomatch heq
    · exact nomatch heq
  | panicked =>
    rw [hphase, hinbound] at hat
    exact nomatch hat.2

/-- **The relay keeps the order of the items**, in every run in which the queue to the connection is
open. -/
theorem Reached.keepsOrder (h : Reached target r) (hopen : r.isOpen = true) :
    KeepsOrder target r := by
  have hinv := h.inv hopen
  have hkept := hinv.kept
  unfold ItemsKept at hkept
  refine ⟨hinv.emitted, hinv.taken, ?_, fun _ => hinv.disembargo_of_mem, fun _ => hinv.forwarded⟩
  rintro (hinbound | hinbound)
  · rw [hinbound] at hkept
    exact hkept.1
  · rw [hinbound] at hkept
    exact hkept.1

/-- Two items are sent, one is relayed, and the capability is resolved: the other is in the channel
that the connection is given. -/
theorem Reached.keepsOrder_two : ∃ r : ReceivedCap ℕ, Reached (.imported 4) r ∧
    r.emitted = [⟨.imported 4, .call 1⟩, ⟨.imported 4, .disembargo 7⟩] ∧ r.inbound = .message ∧
    r.queue = [2] ∧ KeepsOrder (.imported 4) r := by
  have hfirst := (@Reached.new ℕ (.imported 4)).step (.send 1)
  have hrecv := hfirst.step (.recv rfl rfl rfl)
  have hsecond := hrecv.step (.send 2)
  have hresolve := hsecond.step (.resolve (.resolve 7) rfl)
  have hcall := hresolve.step (.sendCall rfl rfl (by decide))
  have hresolved := hcall.step (.disembargo rfl rfl rfl)
  have hlast := hresolved.step (.sendLast rfl rfl (by decide))
  exact ⟨_, hlast, rfl, rfl, rfl, Reached.keepsOrder hlast rfl⟩

end ReceivedCap

end Recapn.Rpc
