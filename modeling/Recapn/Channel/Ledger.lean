/-
# Where requests are

A request is at one place: the program holds it, or it waits in one queue, or a call has it in its
hands.  The ledger says of every request who owns it, what its parent is, and whether its parameters
and its response are there.  As long as it is on its way there are parameters and no response.
-/
import Recapn.Channel.Abandon
import Recapn.Channel.Interleaving
import Recapn.Channel.Writes

namespace Recapn.Channel

open Recapn.Lib Recapn.Lib.Prog

variable {C : Chan} {c d : ChannelId} {r : RequestId}

/-- What the ledger has of a request. -/
@[ext] structure Entry (C : Chan) where
  owner : Owner
  parent : Option ChannelId
  request : Params C
  response : Option C.Results

/-- The entry of a request. -/
def SharedRequest.entry (self : SharedRequest C) : Entry C :=
  ⟨self.owner, self.parent, self.request, self.response⟩

/-- The entries of all requests. -/
structure Ledger (C : Chan) where
  /-- How many requests there are. -/
  requests : ℕ
  entry : RequestId → Entry C

/-- Write the entry of a request. -/
def Ledger.set (l : Ledger C) (r : RequestId) (e : Entry C) : Ledger C :=
  { l with entry := Function.update l.entry r e }

/-- The ledger of a world. -/
def World.ledger (w : World C) : Ledger C := ⟨w.requests, fun r => (w.request r).entry⟩

lemma entry_set_self (l : Ledger C) (r : RequestId) (e : Entry C) : (l.set r e).entry r = e :=
  Function.update_self ..

lemma entry_set_of_ne (l : Ledger C) (e : Entry C) {r r' : RequestId} (h : r' ≠ r) :
    (l.set r e).entry r' = l.entry r' :=
  Function.update_of_ne h ..

lemma set_set (l : Ledger C) (r : RequestId) (e e' : Entry C) : (l.set r e).set r e' = l.set r e' := by
  unfold Ledger.set
  rw [Function.update_idem]

lemma ledger_modifyRequest (w : World C) (r : RequestId) (f : SharedRequest C → SharedRequest C) :
    (w.modifyRequest r f).ledger = w.ledger.set r (f (w.request r)).entry := by
  show (⟨w.requests, _⟩ : Ledger C) = ⟨w.requests, _⟩
  congr 1
  funext r'
  by_cases hr : r' = r
  · rw [hr, World.request_modifyRequest_self, Function.update_self]
  · rw [World.request_modifyRequest_of_ne w f hr, Function.update_of_ne hr]
    rfl

/-- The parts of the world that are in the ledger. -/
abbrev ledgerParts : List Part := [.owner, .parent, .params, .response, .requests]

/-- A function that writes nothing of the ledger. -/
lemma Writes.ledger {α : Type} {K : List Part} {x : ChanM C α} (h : Writes K x)
    (hK : ∀ p ∈ ledgerParts, p ∉ K) : Prog.Fixes World.ledger x := by
  refine Parts.Writes.fixes h ledgerParts (fun w w' hsame => ?_) hK
  unfold World.ledger SharedRequest.entry
  have howner := hsame .owner (by decide)
  have hparent := hsame .parent (by decide)
  have hparams := hsame .params (by decide)
  have hresponse := hsame .response (by decide)
  have hrequests := hsame .requests (by decide)
  simp only [worldParts, World.Same] at howner hparent hparams hresponse hrequests
  simp only [howner, hparent, hparams, hresponse, hrequests]

/-! ## Functions that write the ledger -/

section Writes

variable {w w' : World C} {u : Unit}

lemma setOwner_ledger {owner : Owner} (h : setOwner r owner w = .ok u w') :
    w'.ledger = w.ledger.set r { w.ledger.entry r with owner := owner } := by
  cases h
  exact ledger_modifyRequest w r _

lemma setParent_ledger {parent : ChannelId} (h : SharedRequest.setParent r parent w = .ok u w') :
    w'.ledger = w.ledger.set r { w.ledger.entry r with parent := some parent } := by
  cases h
  exact ledger_modifyRequest w r _

lemma takeParent_ledger {out : Option ChannelId} (h : SharedRequest.takeParent r w = .ok out w') :
    w'.ledger = w.ledger.set r { w.ledger.entry r with parent := none } := by
  have hrest := of_bind rfl h
  obtain ⟨_, hmodify, rfl⟩ := bind_pure_ok hrest
  cases hmodify
  exact ledger_modifyRequest w r _

/-- The parameters are dropped, which were there. -/
lemma dropRequest_ledger (h : dropRequest r w = .ok u w') :
    w'.ledger = w.ledger.set r { w.ledger.entry r with owner := .none, request := .dropped } := by
  obtain ⟨_, w₁, howner, hrest⟩ := bind_eq_ok.1 h
  obtain ⟨_, w₂, hdrop, hclose⟩ := bind_eq_ok.1 hrest
  have hdrop' := of_bind rfl hdrop
  have hdropped : w₂.ledger = w₁.ledger.set r { w₁.ledger.entry r with request := .dropped } := by
    rcases hparams : (w₁.request r).request with params | _ | _
    · rw [hparams] at hdrop'
      cases hdrop'
      exact ledger_modifyRequest w₁ r _
    · rw [hparams] at hdrop'
      cases hdrop'
    · rw [hparams] at hdrop'
      cases hdrop'
  rw [((writes_closeSender r).ledger (by decide)).ok hclose, hdropped, setOwner_ledger howner, entry_set_self, set_set]

/-- The parameters are taken, which were there. -/
lemma respond_ledger {params : C.Parameters} (h : respond r w = .ok params w') :
    (w.ledger.entry r).request = .present params ∧
      w'.ledger = w.ledger.set r { w.ledger.entry r with owner := .responder, request := .taken } := by
  obtain ⟨params', w₁, htake, hrest⟩ := bind_eq_ok.1 h
  obtain ⟨_, w₂, howner, hpure⟩ := bind_eq_ok.1 hrest
  cases hpure
  have htake' := of_bind rfl htake
  have htaken : (w.request r).request = .present params ∧
      w₁.ledger = w.ledger.set r { w.ledger.entry r with request := .taken } := by
    rcases hparams : (w.request r).request with params'' | _ | _
    · rw [hparams] at htake'
      obtain ⟨_, hmodify, rfl⟩ := bind_pure_ok htake'
      cases hmodify
      exact ⟨rfl, ledger_modifyRequest w r _⟩
    · rw [hparams] at htake'
      cases htake'
    · rw [hparams] at htake'
      cases htake'
  refine ⟨htaken.1, ?_⟩
  rw [setOwner_ledger howner, htaken.2, entry_set_self, set_set]

lemma responderRespond_ledger {resp : C.Results} (h : Responder.respond r resp w = .ok u w') :
    w'.ledger = w.ledger.set r { w.ledger.entry r with owner := .none, response := some resp } := by
  obtain ⟨_, w₁, howner, hrest⟩ := bind_eq_ok.1 h
  obtain ⟨_, w₂, hmodify, hresolve⟩ := bind_eq_ok.1 hrest
  have hresponse : w₂.ledger = w₁.ledger.set r { w₁.ledger.entry r with response := some resp } := by
    cases hmodify
    exact ledger_modifyRequest w₁ r _
  rw [((writes_resolvePipelineMap r).ledger (by decide)).ok hresolve, hresponse, setOwner_ledger howner,
    entry_set_self, set_set]

lemma tailCall_ledger {msg : C.Parameters} (h : Responder.tailCall r msg w = .ok u w') :
    w'.ledger = w.ledger.set r
      { w.ledger.entry r with owner := .request, request := .present msg } := by
  cases h
  exact ledger_modifyRequest w r _

lemma dropResponder_ledger (h : dropResponder r w = .ok u w') :
    w'.ledger = w.ledger.set r { w.ledger.entry r with owner := .none } := by
  obtain ⟨_, w₁, howner, hclose⟩ := bind_eq_ok.1 h
  rw [((writes_closeSender r).ledger (by decide)).ok hclose, setOwner_ledger howner]

lemma resultsSenderRespond_ledger {resp : C.Results}
    (h : ResultsSender.respond r resp w = .ok u w') :
    w'.ledger = w.ledger.set r { w.ledger.entry r with owner := .none, response := some resp } := by
  obtain ⟨_, w₁, howner, hmodify⟩ := bind_eq_ok.1 h
  have hresponse : w'.ledger = w₁.ledger.set r { w₁.ledger.entry r with response := some resp } := by
    cases hmodify
    exact ledger_modifyRequest w₁ r _
  rw [hresponse, setOwner_ledger howner, entry_set_self, set_set]

/-- A request that is sent is in the channel, with its parent; but one that is finished is
dropped. -/
lemma sendLocked_ledger {this channel : ChannelId} (h : sendLocked this channel r w = .ok u w') :
    w'.ledger = if (w.request r).isFinished then
        w.ledger.set r ⟨.none, none, .dropped, (w.ledger.entry r).response⟩
      else w.ledger.set r { w.ledger.entry r with owner := .channel, parent := some this } := by
  obtain ⟨w₁, w₂, w₃, howner, hpush, hparent, -, hcases⟩ := sendLocked_cases h
  have hledger₃ : w₃.ledger
      = w.ledger.set r { w.ledger.entry r with owner := .channel, parent := some this } := by
    rw [setParent_ledger hparent, ((writes_pushBack channel _).ledger (by decide)).ok hpush,
      setOwner_ledger howner, entry_set_self, set_set]
  rcases hcases with ⟨hfin, w₄, w₅, w₆, _, hpop, -, hinto, hdrop, htake⟩ | ⟨hfin, hwake⟩
  · rw [if_pos hfin, takeParent_ledger htake, dropRequest_ledger hdrop, setOwner_ledger hinto,
      ((writes_popBack channel).ledger (by decide)).ok hpop, hledger₃]
    simp only [entry_set_self, set_set]
  · rw [if_neg hfin, ((writes_wakeUp channel).ledger (by decide)).ok hwake, hledger₃]

end Writes

end Recapn.Channel
