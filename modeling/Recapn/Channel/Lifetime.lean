/-
# What receives a response is counted

A response is received by what the program holds for that: response receivers, the futures that
they become, and pipeline builders.  It is received by the pipelined channels that are pending, too.
Each is counted once, and when there are none any more the request is finished, and stays it.
-/
import Recapn.Channel.Ledger

namespace Recapn.Channel

open Recapn.Lib Recapn.Lib.Prog

variable {C : Chan} {c d : ChannelId} {r : RequestId}

/-! ## The census -/

/-- What receives responses, and how it is counted. -/
structure Census where
  channels : ℕ
  freed : ChannelId → Bool
  /-- The requests that pipelined channels wait for. -/
  parentRequest : ChannelId → Option RequestId
  trackers : List (Option RequestId)
  requests : ℕ
  count : RequestId → ℕ
  finished : RequestId → Bool

namespace Census

/-- The channel waits for the response of the request. -/
def Awaits (s : Census) (r : RequestId) (c : ChannelId) : Prop :=
  s.freed c = false ∧ s.parentRequest c = some r

instance (s : Census) (r : RequestId) (c : ChannelId) : Decidable (s.Awaits r c) :=
  inferInstanceAs (Decidable (_ ∧ _))

/-- How many pipelined channels are pending. -/
def pending (s : Census) (r : RequestId) : ℕ :=
  ((Finset.range s.channels).filter (s.Awaits r)).card

/-- How much receives the response of a request. -/
def receivers (s : Census) (r : RequestId) : ℕ := s.trackers.count (some r) + s.pending r

/-- Everything is counted, where `loose` says how many receivers calls have in their hands. -/
structure Sound (s : Census) (loose : RequestId → ℕ) : Prop where
  count : ∀ r, s.count r = s.receivers r + loose r
  finished : ∀ {r}, r < s.requests → (s.finished r = true ↔ s.count r = 0)
  fresh : ∀ {c}, s.channels ≤ c → s.parentRequest c = none ∧ s.freed c = false
  later : ∀ {r}, s.requests ≤ r → s.count r = 0

/-- What is finished stays finished. -/
structure Lasts (s s' : Census) : Prop where
  requests : s.requests ≤ s'.requests
  finished : ∀ {r}, r < s.requests → s.finished r = true → s'.finished r = true

lemma Lasts.refl (s : Census) : s.Lasts s := ⟨Nat.le_refl _, fun _ h => h⟩

lemma Lasts.trans {s s' s'' : Census} (h : s.Lasts s') (h' : s'.Lasts s'') : s.Lasts s'' where
  requests := Nat.le_trans h.requests h'.requests
  finished hr hfin := h'.finished (Nat.lt_of_lt_of_le hr h.requests) (h.finished hr hfin)

/-- One more of something. -/
def more (f : RequestId → ℕ) (r : RequestId) : RequestId → ℕ := Function.update f r (f r + 1)

lemma more_self (f : RequestId → ℕ) (r : RequestId) : more f r r = f r + 1 :=
  Function.update_self ..

lemma more_of_ne (f : RequestId → ℕ) {r r' : RequestId} (h : r' ≠ r) : more f r r' = f r' :=
  Function.update_of_ne h ..

/-! ### What changes the census -/

/-- `SharedRequest::add_receiver`. -/
def add (s : Census) (r : RequestId) : Census :=
  { s with count := Function.update s.count r (s.count r + 1) }

/-- `SharedRequest::remove_receiver`. -/
def remove (s : Census) (r : RequestId) : Census :=
  { s with
    count := Function.update s.count r (fetchSubOne (s.count r))
    finished := Function.update s.finished r (s.finished r || decide (fetchSubOne (s.count r) = 0)) }

/-- Another list of trackers. -/
def withTrackers (s : Census) (trackers : List (Option RequestId)) : Census :=
  { s with trackers := trackers }

/-- One more channel. -/
def newChannel (s : Census) (parent : Option RequestId) : Census :=
  { s with
    channels := s.channels + 1
    parentRequest := Function.update s.parentRequest s.channels parent }

/-- A channel waits for no response any more. -/
def release (s : Census) (c : ChannelId) : Census :=
  { s with parentRequest := Function.update s.parentRequest c none }

/-- A channel is deallocated. -/
def free (s : Census) (c : ChannelId) : Census :=
  { s with freed := Function.update s.freed c true }

/-- One more request, with so many receivers. -/
def newRequest (s : Census) (receivers : ℕ) : Census :=
  { s with
    requests := s.requests + 1
    count := Function.update s.count s.requests receivers
    finished := Function.update s.finished s.requests false
    trackers := s.trackers ++ List.replicate receivers (some s.requests) }

variable {s : Census} {loose : RequestId → ℕ}

/-- A receiver is added while there is one. -/
lemma Sound.add (h : s.Sound loose) (hpos : 0 < s.count r) : (s.add r).Sound (more loose r) := by
  refine ⟨fun r' => ?_, fun {r'} hr' => ?_, h.fresh, fun {r'} hr' => ?_⟩
  · show Function.update s.count r (s.count r + 1) r' = s.receivers r' + _
    by_cases hr : r' = r
    · rw [hr, Function.update_self, more_self, h.count r]
      omega
    · rw [Function.update_of_ne hr, more_of_ne _ hr, h.count r']
  · show s.finished r' = true ↔ Function.update s.count r (s.count r + 1) r' = 0
    by_cases hr : r' = r
    · rw [hr, Function.update_self]
      have hiff := h.finished (r := r) (hr ▸ hr')
      exact ⟨fun hfin => absurd (hiff.1 hfin) (Nat.ne_of_gt hpos), fun hzero => absurd hzero (Nat.succ_ne_zero _)⟩
    · rw [Function.update_of_ne hr]
      exact h.finished hr'
  · show Function.update s.count r (s.count r + 1) r' = 0
    have hr : r' ≠ r := by
      rintro rfl
      exact absurd (h.later hr') (Nat.ne_of_gt hpos)
    rw [Function.update_of_ne hr]
    exact h.later hr'

/-- A receiver in someone's hands is dropped: what counts it is not zero. -/
lemma Sound.remove (h : s.Sound (more loose r)) : (s.remove r).Sound loose := by
  have hcount : s.count r = s.receivers r + loose r + 1 := by
    rw [h.count r, more_self]
    omega
  have hsub : fetchSubOne (s.count r) = s.receivers r + loose r := by
    unfold fetchSubOne
    rw [if_neg (by omega)]
    omega
  have hlt : r < s.requests := by
    by_contra hr
    rw [h.later (Nat.not_lt.1 hr)] at hcount
    omega
  refine ⟨fun r' => ?_, fun {r'} hr' => ?_, h.fresh, fun {r'} hr' => ?_⟩
  · show Function.update s.count r (fetchSubOne (s.count r)) r' = s.receivers r' + _
    by_cases hr : r' = r
    · rw [hr, Function.update_self, hsub]
    · rw [Function.update_of_ne hr, h.count r', more_of_ne _ hr]
  · show Function.update s.finished r _ r' = true ↔ Function.update s.count r _ r' = 0
    by_cases hr : r' = r
    · rw [hr, Function.update_self, Function.update_self, hsub]
      have hiff := h.finished hlt
      rw [Bool.or_eq_true, decide_eq_true_iff]
      refine ⟨fun hor => hor.resolve_left fun hfin => ?_, Or.inr⟩
      have hzero := hiff.1 hfin
      omega
    · rw [Function.update_of_ne hr, Function.update_of_ne hr]
      exact h.finished hr'
  · show Function.update s.count r _ r' = 0
    have hr : r' ≠ r := by
      rintro rfl
      exact absurd hlt (Nat.not_lt.2 hr')
    rw [Function.update_of_ne hr]
    exact h.later hr'

lemma lasts_remove (s : Census) (r : RequestId) : s.Lasts (s.remove r) where
  requests := Nat.le_refl _
  finished {r'} _ hfin := by
    show Function.update s.finished r _ r' = true
    by_cases hr : r' = r
    · rw [hr, Function.update_self, ← hr, hfin]
      rfl
    · rw [Function.update_of_ne hr, hfin]

/-! ### Trackers -/

lemma Sound.withTrackers (h : s.Sound loose) {trackers : List (Option RequestId)}
    {loose' : RequestId → ℕ}
    (hcount : ∀ r, trackers.count (some r) + loose' r = s.trackers.count (some r) + loose r) :
    (s.withTrackers trackers).Sound loose' := by
  refine ⟨fun r => ?_, h.finished, h.fresh, h.later⟩
  have hold := h.count r
  have hnew := hcount r
  show s.count r = trackers.count (some r) + s.pending r + loose' r
  unfold receivers at hold
  omega

/-- The program holds the receiver that was in someone's hands. -/
lemma Sound.hold (h : s.Sound (more loose r)) : (s.withTrackers (s.trackers ++ [some r])).Sound loose := by
  refine h.withTrackers fun r' => ?_
  rw [List.count_append]
  by_cases hr : r' = r
  · rw [hr, more_self, List.count_singleton_self]
    omega
  · have hne : some r ≠ some r' := fun heq => hr (Option.some.inj heq).symm
    rw [more_of_ne _ hr, List.count_singleton, if_neg (by simpa using hne)]
    omega

/-- A receiver of the program is in someone's hands. -/
lemma Sound.unhold (h : s.Sound loose) {t : TrackerId} (ht : s.trackers[t]? = some (some r)) :
    (s.withTrackers (s.trackers.set t none)).Sound (more loose r) := by
  obtain ⟨hlt, hget⟩ := List.getElem?_eq_some_iff.1 ht
  refine h.withTrackers fun r' => ?_
  rw [List.count_set hlt, hget]
  have hnone : ((none : Option RequestId) == some r') = false := rfl
  by_cases hr : r' = r
  · have hpos : 0 < s.trackers.count (some r) := List.count_pos_iff.2 (List.mem_of_getElem? ht)
    rw [hr, more_self]
    simp only [beq_self_eq_true, if_true, beq_iff_eq, reduceCtorEq, if_false]
    omega
  · have hne : some r ≠ some r' := fun heq => hr (Option.some.inj heq).symm
    rw [more_of_ne _ hr]
    simp only [beq_iff_eq, hne, if_false, reduceCtorEq]
    omega

/-! ### Pipelined channels -/

/-- Whatever counts channels counts one more or one less. -/
lemma pending_release (hlt : c < s.channels) (hawaits : s.Awaits r c) {s' : Census}
    (hchannels : s'.channels = s.channels) (hgone : ∀ r', ¬ s'.Awaits r' c)
    (hother : ∀ r' d, d ≠ c → (s'.Awaits r' d ↔ s.Awaits r' d)) (r' : RequestId) :
    s.pending r' = s'.pending r' + if r' = r then 1 else 0 := by
  unfold pending
  rw [hchannels]
  by_cases hr : r' = r
  · rw [if_pos hr, hr]
    exact Books.card_filter_succ hlt (hgone r) hawaits fun d hd => (hother r d hd).symm
  · rw [if_neg hr, Nat.add_zero]
    refine congrArg Finset.card (Finset.filter_congr fun d _ => ?_)
    by_cases hd : d = c
    · rw [hd]
      refine ⟨fun hd' => ?_, fun hd' => absurd hd' (hgone r')⟩
      have heq := hawaits.2.symm.trans hd'.2
      exact absurd (Option.some.inj heq).symm hr
    · exact (hother r' d hd).symm

/-- So many receivers in someone's hands as there are requests in the option. -/
def moreOf (f : RequestId → ℕ) : Option RequestId → RequestId → ℕ
  | none => f
  | some r => more f r

lemma moreOf_apply (f : RequestId → ℕ) (parent : Option RequestId) (r : RequestId) :
    moreOf f parent r = f r + if parent = some r then 1 else 0 := by
  rcases parent with _ | r'
  · rfl
  · show more f r' r = _
    by_cases hr : r = r'
    · rw [hr, more_self, if_pos rfl]
    · rw [more_of_ne _ hr, if_neg fun heq => hr (Option.some.inj heq).symm, Nat.add_zero]

/-- A channel of the census waits for nothing any more: its receiver is in someone's hands. -/
lemma Sound.gone (h : s.Sound loose) (hlt : c < s.channels) (hfreed : s.freed c = false) {s' : Census}
    (hchannels : s'.channels = s.channels) (htrackers : s'.trackers = s.trackers)
    (hrequests : s'.requests = s.requests) (hcount : s'.count = s.count)
    (hfinished : s'.finished = s.finished)
    (hfresh : ∀ {d}, s.channels ≤ d → s'.parentRequest d = none ∧ s'.freed d = false)
    (hgone : ∀ r', ¬ s'.Awaits r' c) (hother : ∀ r' d, d ≠ c → (s'.Awaits r' d ↔ s.Awaits r' d)) :
    s'.Sound (moreOf loose (s.parentRequest c)) := by
  refine ⟨fun r => ?_, fun {r} hr => ?_, fun hd => hfresh (hchannels ▸ hd), fun {r} hr => ?_⟩
  · have hold := h.count r
    have hpending : s.pending r = s'.pending r + if s.parentRequest c = some r then 1 else 0 := by
      rcases hparent : s.parentRequest c with _ | r'
      · -- it waited for nothing before
        have hnot : ∀ r', ¬ s.Awaits r' c := by
          rintro r' ⟨-, hawaits⟩
          rw [hparent] at hawaits
          cases hawaits
        unfold pending
        rw [hchannels]
        refine congrArg Finset.card (Finset.filter_congr fun d _ => ?_)
        by_cases hd : d = c
        · rw [hd]
          exact ⟨fun hd' => absurd hd' (hnot r), fun hd' => absurd hd' (hgone r)⟩
        · exact (hother r d hd).symm
      · rw [pending_release hlt ⟨hfreed, hparent⟩ hchannels hgone hother r]
        by_cases hr : r = r'
        · rw [if_pos hr, if_pos (by rw [hr])]
        · rw [if_neg hr, if_neg fun heq => hr (Option.some.inj heq).symm]
    have hreceivers : s'.receivers r = s.trackers.count (some r) + s'.pending r := by
      unfold receivers
      rw [htrackers]
    rw [hcount, hold, moreOf_apply, hreceivers]
    unfold receivers
    omega
  · rw [hcount, hfinished]
    exact h.finished (hrequests ▸ hr)
  · rw [hcount]
    exact h.later (hrequests ▸ hr)

lemma Sound.release (h : s.Sound loose) (hlt : c < s.channels) (hfreed : s.freed c = false) :
    (s.release c).Sound (moreOf loose (s.parentRequest c)) := by
  have hself : (s.release c).parentRequest c = none := Function.update_self ..
  have hother : ∀ {d}, d ≠ c → (s.release c).parentRequest d = s.parentRequest d := fun hd =>
    Function.update_of_ne hd ..
  refine h.gone hlt hfreed rfl rfl rfl rfl rfl (fun {d} hd => ?_) ?_ fun r' d hd => ?_
  · have hne : d ≠ c := fun heq => Nat.not_lt.2 hd (heq ▸ hlt)
    rw [hother hne]
    exact h.fresh hd
  · rintro r' ⟨-, hawaits⟩
    rw [hself] at hawaits
    cases hawaits
  · unfold Awaits
    rw [hother hd]
    exact Iff.rfl

lemma Sound.free (h : s.Sound loose) (hlt : c < s.channels) (hfreed : s.freed c = false) :
    (s.free c).Sound (moreOf loose (s.parentRequest c)) := by
  have hself : (s.free c).freed c = true := Function.update_self ..
  have hother : ∀ {d}, d ≠ c → (s.free c).freed d = s.freed d := fun hd =>
    Function.update_of_ne hd ..
  refine h.gone hlt hfreed rfl rfl rfl rfl rfl (fun {d} hd => ?_) ?_ fun r' d hd => ?_
  · have hne : d ≠ c := fun heq => Nat.not_lt.2 hd (heq ▸ hlt)
    rw [hother hne]
    exact h.fresh hd
  · rintro r' ⟨hawaits, -⟩
    rw [hself] at hawaits
    cases hawaits
  · unfold Awaits
    rw [hother hd]
    exact Iff.rfl

/-- A new channel waits for a response, or for none. -/
lemma Sound.newChannel {parent : Option RequestId} (h : s.Sound (moreOf loose parent)) :
    (s.newChannel parent).Sound loose := by
  have hself : (s.newChannel parent).parentRequest s.channels = parent := Function.update_self ..
  have hother : ∀ {d}, d ≠ s.channels → (s.newChannel parent).parentRequest d = s.parentRequest d :=
    fun hd => Function.update_of_ne hd ..
  obtain ⟨hnone, hfreed⟩ := h.fresh (Nat.le_refl _)
  refine ⟨fun r => ?_, h.finished, fun {d} hd => ?_, h.later⟩
  · have hsucc : (s.newChannel parent).pending r
        = s.pending r + if parent = some r then 1 else 0 := by
      unfold pending
      show ((Finset.range (s.channels + 1)).filter _).card = _
      rw [Finset.range_add_one, Finset.filter_insert]
      have hsame : (Finset.range s.channels).filter ((s.newChannel parent).Awaits r)
          = (Finset.range s.channels).filter (s.Awaits r) := by
        refine Finset.filter_congr fun d hd => ?_
        unfold Awaits
        rw [hother (Nat.ne_of_lt (Finset.mem_range.1 hd))]
        exact Iff.rfl
      by_cases hr : parent = some r
      · rw [if_pos ⟨hfreed, hself.trans hr⟩, if_pos hr, Finset.card_insert_of_notMem, hsame]
        intro hmem
        exact Nat.lt_irrefl _ (Finset.mem_range.1 (Finset.mem_filter.1 hmem).1)
      · rw [if_neg (fun hawaits => hr (hself.symm.trans hawaits.2)), if_neg hr, hsame, Nat.add_zero]
    have hold := h.count r
    rw [moreOf_apply] at hold
    unfold receivers at hold ⊢
    rw [hsucc]
    show s.count r = s.trackers.count (some r) + _ + _
    omega
  · have hd' : s.channels + 1 ≤ d := hd
    rw [hother (by omega)]
    exact h.fresh (by omega)

/-- A new request is tracked by its receivers. -/
lemma Sound.newRequest (h : s.Sound loose) {receivers : ℕ} (hpos : 0 < receivers) :
    (s.newRequest receivers).Sound loose := by
  have hzero := h.count s.requests
  rw [h.later (Nat.le_refl _)] at hzero
  unfold Census.receivers at hzero
  refine ⟨fun r => ?_, fun {r} hr => ?_, h.fresh, fun {r} hr => ?_⟩
  · show Function.update s.count s.requests receivers r
      = (s.trackers ++ List.replicate receivers (some s.requests)).count (some r) + s.pending r + loose r
    rw [List.count_append, List.count_replicate]
    by_cases hr : r = s.requests
    · rw [hr, Function.update_self]
      simp only [beq_self_eq_true, if_true]
      omega
    · have hne : some s.requests ≠ some r := fun heq => hr (Option.some.inj heq).symm
      have hold := h.count r
      unfold Census.receivers at hold
      rw [Function.update_of_ne hr]
      simp only [beq_iff_eq, hne, if_false]
      omega
  · show Function.update s.finished s.requests false r = true
      ↔ Function.update s.count s.requests receivers r = 0
    by_cases hr' : r = s.requests
    · rw [hr', Function.update_self, Function.update_self]
      exact ⟨nofun, fun hzero => absurd hzero (Nat.ne_of_gt hpos)⟩
    · rw [Function.update_of_ne hr', Function.update_of_ne hr']
      exact h.finished (Nat.lt_of_le_of_ne (Nat.le_of_lt_succ hr) hr')
  · have hr' : s.requests + 1 ≤ r := hr
    show Function.update s.count s.requests receivers r = 0
    rw [Function.update_of_ne (Nat.ne_of_gt hr')]
    exact h.later (Nat.le_of_succ_le hr')

lemma lasts_newRequest (s : Census) (receivers : ℕ) : s.Lasts (s.newRequest receivers) where
  requests := Nat.le_succ _
  finished {r} hr hfin := by
    show Function.update s.finished s.requests false r = true
    rw [Function.update_of_ne (Nat.ne_of_lt hr), hfin]

end Census

/-- The census of a world. -/
def World.census (w : World C) : Census :=
  ⟨w.channels, w.freed, fun c => (w.channel c).parentRequest, w.trackers, w.requests,
    fun r => (w.request r).receiversCount, fun r => (w.request r).isFinished⟩

/-- The parts of the world that are in the census. -/
abbrev censusParts : List Part :=
  [.channels, .freed, .parentRequest, .trackers, .requests, .receivers]

/-- A function that writes nothing of the census. -/
lemma Writes.census {α : Type} {K : List Part} {x : ChanM C α} (h : Writes K x)
    (hK : ∀ p ∈ censusParts, p ∉ K) : Prog.Fixes World.census x := by
  refine Parts.Writes.fixes h censusParts (fun w w' hsame => ?_) hK
  unfold World.census
  have hchannels := hsame .channels (by decide)
  have hfreed := hsame .freed (by decide)
  have hparent := hsame .parentRequest (by decide)
  have htrackers := hsame .trackers (by decide)
  have hrequests := hsame .requests (by decide)
  have hreceivers := hsame .receivers (by decide)
  simp only [worldParts, World.Same] at hchannels hfreed hparent htrackers hrequests hreceivers
  simp only [hchannels, hfreed, hparent, htrackers, hrequests, hreceivers]

/-! ## Functions that count receivers -/

section Counts

variable {w w' : World C} {u : Unit} {loose : RequestId → ℕ}

lemma addReceiver_census (h : SharedRequest.addReceiver r w = .ok u w') :
    w'.census = w.census.add r := by
  have hrest := of_bind rfl h
  rcases ite_eq_ok.1 hrest with ⟨-, hhalt⟩ | ⟨-, hmodify⟩
  · cases hhalt
  · cases hmodify
    unfold World.census Census.add
    congr 1
    · funext r'
      by_cases hr : r' = r
      · rw [hr, World.request_modifyRequest_self, Function.update_self]
      · rw [World.request_modifyRequest_of_ne w _ hr, Function.update_of_ne hr]
    · funext r'
      by_cases hr : r' = r
      · rw [hr, World.request_modifyRequest_self]
        rfl
      · rw [World.request_modifyRequest_of_ne w _ hr]

lemma removeReceiver_census (h : SharedRequest.removeReceiver r w = .ok u w') :
    w'.census = w.census.remove r := by
  have hrest := of_bind rfl h
  have hlastReceiver := of_bind rfl hrest
  have hcensus : ∀ f : SharedRequest C → SharedRequest C,
      (∀ req, (f req).receiversCount = fetchSubOne req.receiversCount) →
      (f (w.request r)).isFinished
        = ((w.request r).isFinished || decide (fetchSubOne (w.request r).receiversCount = 0)) →
      (w.modifyRequest r f).census = w.census.remove r := by
    intro f hcount hfinished
    unfold World.census Census.remove
    congr 1
    · funext r'
      by_cases hr : r' = r
      · rw [hr, World.request_modifyRequest_self, Function.update_self, hcount]
      · rw [World.request_modifyRequest_of_ne w f hr, Function.update_of_ne hr]
    · funext r'
      by_cases hr : r' = r
      · rw [hr, World.request_modifyRequest_self, Function.update_self, hfinished]
      · rw [World.request_modifyRequest_of_ne w f hr, Function.update_of_ne hr]
  rcases ite_eq_ok.1 hlastReceiver with ⟨hlast, hfinish⟩ | ⟨hlast, hpure⟩
  · obtain ⟨_, w₂, hclose, htry⟩ := bind_eq_ok.1 hfinish
    have hboth : w₂ = w.modifyRequest r fun req => { req with
        receiversCount := fetchSubOne req.receiversCount, state := req.state.setRecvClosed } := by
      cases hclose
      unfold World.modifyRequest
      simp only [Function.update_idem, Function.update_self]
    have hwrites : Writes [] (SharedRequest.tryRemoveFromChannel r : ChanM C Unit) :=
      writes_tryRemoveFromChannel r
    rw [(hwrites.census (by decide)).ok htry, hboth]
    refine hcensus _ (fun _ => rfl) ?_
    rw [decide_eq_true hlast, Bool.or_true]
    rfl
  · cases hpure
    refine hcensus _ (fun _ => rfl) ?_
    rw [decide_eq_false hlast, Bool.or_false]
    rfl

/-- The receiver of a request is dropped that someone has in his hands. -/
lemma dropReceiver_counted {parent : Option RequestId} (h : w.census.Sound (Census.moreOf loose parent))
    (hdrop : SharedRequest.dropReceiver parent w = .ok u w') :
    w'.census.Sound loose ∧ w.census.Lasts w'.census := by
  rcases parent with _ | r
  · cases hdrop
    exact ⟨h, .refl _⟩
  · rw [removeReceiver_census hdrop]
    exact ⟨h.remove, Census.lasts_remove _ r⟩

end Counts

/-- What was counted is counted still, and what was finished is. -/
def World.Counts (w w' : World C) : Prop :=
  ∀ loose, w.census.Sound loose → w'.census.Sound loose ∧ w.census.Lasts w'.census

lemma World.Counts.refl (w : World C) : w.Counts w := fun _ hsound => ⟨hsound, .refl _⟩

lemma World.Counts.trans {w w' w'' : World C} (h : w.Counts w') (h' : w'.Counts w'') :
    w.Counts w'' := by
  intro loose hsound
  obtain ⟨hsound', hlasts⟩ := h loose hsound
  obtain ⟨hsound'', hlasts'⟩ := h' loose hsound'
  exact ⟨hsound'', hlasts.trans hlasts'⟩

/-- The program keeps everything counted, and what is finished stays finished. -/
abbrev Counting {α : Type} (x : ChanM C α) : Prop := Prog.Keeps World.Counts x

section Counting

variable {α β : Type}

lemma counting_of_fixes {x : ChanM C α} (h : Prog.Fixes World.census x) : Counting x := by
  refine keeps_of_ok fun w a w' hrun loose hsound => ?_
  rw [h.ok hrun]
  exact ⟨hsound, .refl _⟩

/-- A program that writes nothing of the census. -/
lemma Writes.counting {K : List Part} {x : ChanM C α} (h : Writes K x)
    (hK : ∀ p ∈ censusParts, p ∉ K) : Counting x :=
  counting_of_fixes (h.census hK)

lemma counting_pure (a : α) : Counting (pure a : ChanM C α) :=
  keeps_pure World.Counts.refl a

lemma counting_bind {x : ChanM C α} {f : α → ChanM C β} (hx : Counting x) (hf : ∀ a, Counting (f a)) :
    Counting (x >>= f) :=
  keeps_bind (fun _ _ _ h h' => h.trans h') hx hf

/-- `WeakChannel::upgrade` takes the receiver out of the channel and drops it. -/
lemma counting_weakUpgrade (weak : ChannelId) : Counting (weakUpgrade weak : ChanM C Bool) := by
  refine keeps_of_ok fun w upgraded w' h loose hsound => ?_
  have hrest := of_bind rfl h
  rcases ite_eq_ok.1 hrest with ⟨-, hpure⟩ | ⟨hfreed, hupgrade⟩
  · cases hpure
    exact ⟨hsound, .refl _⟩
  · have htake := of_bind rfl hupgrade
    obtain ⟨_, w₁, hmodify, hreceiver⟩ := bind_eq_ok.1 htake
    obtain ⟨_, hdrop, rfl⟩ := bind_pure_ok hreceiver
    have hcensus : w₁.census = w.census.release weak := by
      cases hmodify
      unfold World.census Census.release
      congr 1
      funext d
      by_cases hd : d = weak
      · rw [hd, World.channel_modifyChannel_self, Function.update_self]
      · rw [World.channel_modifyChannel_of_ne w _ hd, Function.update_of_ne hd]
    have hreleased : w₁.census.Sound (Census.moreOf loose (w.channel weak).parentRequest) := by
      rw [hcensus]
      by_cases hlt : weak < w.channels
      · exact hsound.release hlt (Bool.eq_false_iff.2 hfreed)
      · -- a channel that is not there waits for nothing
        have hnone : w.census.parentRequest weak = none := (hsound.fresh (Nat.not_lt.1 hlt)).1
        have hsame : w.census.release weak = w.census := by
          unfold Census.release
          rw [← hnone, Function.update_eq_self]
        rw [hsame, show (w.channel weak).parentRequest = none from hnone]
        exact hsound
    obtain ⟨hsound', hlasts⟩ := dropReceiver_counted hreleased hdrop
    have hfirst : w.census.Lasts w₁.census := by
      rw [hcensus]
      exact ⟨Nat.le_refl _, fun _ hfin => hfin⟩
    exact ⟨hsound', hfirst.trans hlasts⟩

lemma counting_upgradeAll (map : List (C.PipelineKey × ChannelId)) : Counting (upgradeAll map) := by
  induction map with
  | nil => exact counting_pure _
  | cons entry map ih =>
    refine counting_bind (counting_weakUpgrade entry.2) fun upgraded => ?_
    refine counting_bind (counting_of_fixes ?_) fun _ => ih
    exact fixes_ite (fixes_modify fun _ => rfl) (fixes_pure _)

lemma counting_modifyRequest {f : SharedRequest C → SharedRequest C}
    (h : ∀ req, SharedRequest.Same .receivers req (f req)) : Counting (modifyRequest r f) := by
  have hwrites : Writes [.owner, .parent, .params, .response, .pipeline] (modifyRequest r f) := by
    refine writes_modifyRequest fun p hp req => ?_
    cases p
    case receivers => exact h req
    all_goals first
      | exact absurd (by decide) hp
      | trivial
  exact hwrites.counting (by decide)

lemma counting_resolvePipelineMap (r : RequestId) :
    Counting (resolvePipelineMap r : ChanM C Unit) := by
  refine counting_bind (counting_of_fixes (fixes_getRequest r)) fun req => ?_
  refine counting_bind (counting_modifyRequest fun _ => ⟨rfl, rfl⟩) fun _ => ?_
  refine counting_bind (counting_upgradeAll _) fun _ => ?_
  exact counting_modifyRequest fun _ => ⟨rfl, rfl⟩

lemma counting_responderRespond (r : RequestId) (resp : C.Results) :
    Counting (Responder.respond r resp) := by
  refine counting_bind ((writes_setOwner r _).counting (by decide)) fun _ => ?_
  refine counting_bind (counting_modifyRequest fun _ => ⟨rfl, rfl⟩) fun _ => ?_
  exact counting_resolvePipelineMap r

lemma counting_setPipeline (r : RequestId) (dst : C.Pipeline) :
    Counting (Responder.setPipeline r dst) := by
  refine counting_bind (counting_modifyRequest fun _ => ⟨rfl, rfl⟩) fun _ => ?_
  refine counting_bind (counting_of_fixes (fixes_getRequest r)) fun req => ?_
  refine counting_bind (counting_of_fixes (fixes_require _)) fun _ => ?_
  refine counting_bind (counting_resolvePipelineMap r) fun _ => ?_
  exact (writes_setOwner r _).counting (by decide)

lemma answers_counts : Answers (C := C) World.Counts where
  refl := World.Counts.refl
  trans _ _ _ h h' := h.trans h'
  writes h := h.counting (by decide)
  respond := counting_responderRespond

end Counting

/-! ## Calls -/

section Calls

variable {w w' : World C} {loose : RequestId → ℕ} {out : Output C}

/-- What is tracked is counted. -/
lemma count_pos_of_tracker (hsound : w.census.Sound loose) {t : TrackerId}
    (ht : w.trackers[t]? = some (some r)) : 0 < w.census.count r := by
  have hpos : 0 < w.trackers.count (some r) := List.count_pos_iff.2 (List.mem_of_getElem? ht)
  rw [hsound.count r]
  unfold Census.receivers
  show 0 < w.trackers.count (some r) + _ + _
  omega

lemma newChannel_census (w : World C) (ch : SharedChannel C) :
    (w.addChannel ch).census = w.census.newChannel ch.parentRequest := by
  unfold World.census Census.newChannel
  congr 1
  funext d
  by_cases hd : d = w.channels
  · rw [hd, World.channel_addChannel_self, Function.update_self]
  · rw [World.channel_addChannel_of_ne w ch hd, Function.update_of_ne hd]

lemma addReceiver_counted {u : Unit} (hsound : w.census.Sound loose) (hpos : 0 < w.census.count r)
    (h : SharedRequest.addReceiver r w = .ok u w') :
    w'.census.Sound (Census.more loose r) ∧ w.census.Lasts w'.census := by
  rw [addReceiver_census h]
  exact ⟨hsound.add hpos, Nat.le_refl _, fun _ hfin => hfin⟩

/-- A new pipelined channel is counted as a receiver. -/
lemma build_insert_counted {key : C.PipelineKey} {map : List (C.PipelineKey × ChannelId)}
    {sender : Option Sender} (hsound : w.census.Sound loose) (hpos : 0 < w.census.count r)
    (h : build.insert r key map w = .ok sender w') :
    w'.census.Sound loose ∧ w.census.Lasts w'.census := by
  obtain ⟨w₁, hadd, -, rfl⟩ := build_insert_eq_ok h
  obtain ⟨hsound₁, hlasts₁⟩ := addReceiver_counted hsound hpos hadd
  have hloose : w₁.census.Sound (Census.moreOf loose (some r)) := hsound₁
  have hnew : (w₁.addChannel (.new (some r))).census.Sound loose ∧
      w₁.census.Lasts (w₁.addChannel (.new (some r))).census := by
    rw [newChannel_census]
    exact ⟨hloose.newChannel, Nat.le_refl _, fun _ hfin => hfin⟩
  have hinsert : Counting (modifyRequest (C := C) r fun req =>
      { req with pipelineMap := map ++ [(key, w₁.channels)] }) :=
    counting_modifyRequest fun _ => ⟨rfl, rfl⟩
  obtain ⟨hsound₄, hlasts₄⟩ := hinsert.ok rfl _ hnew.1
  exact ⟨hsound₄, hlasts₁.trans (hnew.2.trans hlasts₄)⟩

lemma build_counted {key : C.PipelineKey} {sender : Option Sender} (hsound : w.census.Sound loose)
    (hpos : 0 < w.census.count r) (h : build r key w = .ok sender w') :
    w'.census.Sound loose ∧ w.census.Lasts w'.census := by
  rcases build_cases h with ⟨-, -, rfl⟩ | ⟨-, ⟨c, -, -, -, hadd⟩ | ⟨-, hinsert⟩⟩
  · exact ⟨hsound, .refl _⟩
  · rw [((writes_addSender c).census (by decide)).ok hadd]
    exact ⟨hsound, .refl _⟩
  · exact build_insert_counted hsound hpos hinsert

/-- A channel that is deallocated drops the receiver that it has. -/
lemma freeChannel_counted {u : Unit} (hsound : w.census.Sound loose) (hlt : c < w.channels)
    (hfreed : w.freed c = false) (h : freeChannel c w = .ok u w') :
    w'.census.Sound loose ∧ w.census.Lasts w'.census := by
  have hrest := of_bind rfl h
  obtain ⟨_, w₁, hmodify, hreceiver⟩ := bind_eq_ok.1 hrest
  obtain ⟨_, w₂, hdrop, hsender⟩ := bind_eq_ok.1 hreceiver
  have hcensus : w₁.census = w.census.free c := by
    cases hmodify
    rfl
  have hfree : w₁.census.Sound (Census.moreOf loose (w.channel c).parentRequest) := by
    rw [hcensus]
    exact hsound.free hlt hfreed
  obtain ⟨hsound₂, hlasts₂⟩ := dropReceiver_counted hfree hdrop
  have hsame : w'.census = w₂.census := by
    rcases hheld : (w.channel c).held with _ | sender
    · rw [hheld] at hsender
      cases hsender
      rfl
    · rw [hheld] at hsender
      exact ((writes_removeSender _).census (by decide)).ok hsender
  rw [hsame]
  refine ⟨hsound₂, Census.Lasts.trans ?_ hlasts₂⟩
  rw [hcensus]
  exact ⟨Nat.le_refl _, fun _ hfin => hfin⟩

lemma newRequest_counted {msg : C.Parameters} {receivers : ℕ} {u : Unit} (hpos : 0 < receivers)
    (hsound : w.census.Sound loose) (h : newRequest msg receivers w = .ok u w') :
    w'.census.Sound loose ∧ w.census.Lasts w'.census := by
  have hcensus : w'.census = w.census.newRequest receivers := by
    cases h
    unfold World.census Census.newRequest
    congr 1
    · funext r
      show (Function.update w.request w.requests (.new msg receivers) r).receiversCount
        = Function.update w.census.count w.requests receivers r
      by_cases hr : r = w.requests
      · rw [hr, Function.update_self, Function.update_self]
        rfl
      · rw [Function.update_of_ne hr, Function.update_of_ne hr]
        rfl
    · funext r
      show (Function.update w.request w.requests (.new msg receivers) r).isFinished
        = Function.update w.census.finished w.requests false r
      by_cases hr : r = w.requests
      · rw [hr, Function.update_self, Function.update_self]
        rfl
      · rw [Function.update_of_ne hr, Function.update_of_ne hr]
        rfl
  rw [hcensus]
  exact ⟨hsound.newRequest hpos, Census.lasts_newRequest _ receivers⟩

/-- **Every call keeps everything counted.** -/
theorem Call.exec_counted {call : Call C} (hallowed : call.Allowed w) (hsound : w.census.Sound loose)
    (h : call.exec w = .ok out w') : w'.census.Sound loose ∧ w.census.Lasts w'.census := by
  have hloose : w.census.Sound (Census.moreOf loose none) := hsound
  have hapart : ∀ K : List Part, (∀ p ∈ censusParts, p ∉ K) → call.parts = K →
      w'.census.Sound loose ∧ w.census.Lasts w'.census := fun K hapart hK =>
    ((Call.writes_exec call).counting (hK ▸ hapart)).ok h _ hsound
  cases call with
  | channel =>
    cases h
    show (w.addChannel (.new none)).census.Sound loose ∧ w.census.Lasts (w.addChannel (.new none)).census
    rw [newChannel_census]
    exact ⟨hloose.newChannel, Nat.le_refl _, fun _ hfin => hfin⟩
  | broken err =>
    cases h
    show (w.addChannel (.resolved (.error err))).census.Sound loose ∧
      w.census.Lasts (w.addChannel (.resolved (.error err))).census
    rw [newChannel_census]
    exact ⟨hloose.newChannel, Nat.le_refl _, fun _ hfin => hfin⟩
  | cloneSender s | dropSender s | resolveInPlace s => exact hapart [] (by decide) rfl
  | send s req => exact hapart [.owner, .parent, .params] (by decide) rfl
  | sendEvent s event => exact hapart [] (by decide) rfl
  | forwardTo c other => exact (answers_counts.exec_forwardTo c other).ok h _ hsound
  | pollClosed c waker => exact hapart [] (by decide) rfl
  | pollRecv c waker => exact hapart [.owner, .parent] (by decide) rfl
  | tryRecv c => exact hapart [.owner] (by decide) rfl
  | close c err => exact (answers_counts.exec_close c err).ok h _ hsound
  | dropReceiver c => exact hapart [] (by decide) rfl
  | requestResponse msg | requestPipeline msg =>
    cases h
    exact newRequest_counted Nat.one_pos hsound rfl
  | requestResponsePipeline msg =>
    cases h
    exact newRequest_counted Nat.two_pos hsound rfl
  | dropRequest r | respond r => exact hapart [.owner, .params] (by decide) rfl
  | responderRespond r resp => exact (answers_counts.exec_responderRespond r resp).ok h _ hsound
  | tailCall r msg => exact hapart [.owner, .params] (by decide) rfl
  | setPipeline r dst =>
    exact (counting_bind (counting_setPipeline r dst) fun _ => counting_pure _).ok h _ hsound
  | dropResponder r => exact hapart [.owner] (by decide) rfl
  | resultsSenderRespond r resp => exact hapart [.owner, .response] (by decide) rfl
  | dropResultsSender r => exact hapart [.owner] (by decide) rfl
  | cloneTracker t =>
    obtain ⟨r, w₁, ht, hadd, rfl⟩ := exec_cloneTracker_ok h
    obtain ⟨hsound₂, hlasts⟩ := addReceiver_counted hsound (count_pos_of_tracker hsound ht) hadd
    exact ⟨hsound₂.hold, hlasts.requests, hlasts.finished⟩
  | dropTracker t =>
    obtain ⟨r, ht, hremove⟩ := exec_dropTracker_ok h
    rw [removeReceiver_census hremove]
    exact ⟨(hsound.unhold ht).remove, Nat.le_refl _, (Census.lasts_remove w.census r).finished⟩
  | build t key =>
    obtain ⟨r, ht, ⟨hbuild, -⟩ | ⟨sender, w₁, hbuild, -, rfl⟩⟩ := exec_build_cases h
    · exact build_counted hsound (count_pos_of_tracker hsound ht) hbuild
    · obtain ⟨hsound₁, hlasts⟩ := build_counted hsound (count_pos_of_tracker hsound ht) hbuild
      exact ⟨hsound₁, hlasts⟩
  | freeChannel c =>
    obtain ⟨_, hfree, rfl⟩ := bind_pure_ok h
    exact freeChannel_counted hsound hallowed.1 hallowed.2.1 hfree
  | freeRequest r => exact hapart [.parent, .pipeline] (by decide) rfl

end Calls

/-! ## Runs -/

namespace World

/-- How much receives the response of a request: what the program holds for it, and the pipelined
channels that are pending. -/
def receivers (w : World C) (r : RequestId) : ℕ :=
  w.trackers.count (some r) + ((Finset.range w.channels).filter fun c =>
    w.freed c = false ∧ (w.channel c).parentRequest = some r).card

/-- What receives the response of a request is counted, the request is finished when there is
nothing any more, and a receiver can be dropped while the request is in no channel. -/
structure CountsReceivers (w : World C) (r : RequestId) : Prop where
  count : (w.request r).receiversCount = w.receivers r
  finished : (w.request r).isFinished = true ↔ w.receivers r = 0
  drop : (w.request r).parent = none → ∃ w', SharedRequest.removeReceiver r w = .ok () w'

end World

lemma removeReceiver_returns {w : World C} (hparent : (w.request r).parent = none) :
    ∃ w', SharedRequest.removeReceiver r w = .ok () w' := by
  unfold SharedRequest.removeReceiver
  rw [bind_of_ok (show getRequest r w = .ok (w.request r) w from rfl),
    bind_of_ok (show modifyRequest r _ w = .ok () _ from rfl)]
  by_cases hlast : fetchSubOne (w.request r).receiversCount = 0
  · rw [if_pos_apply hlast, bind_of_ok (show modifyRequest r _ _ = .ok () _ from rfl)]
    unfold SharedRequest.tryRemoveFromChannel
    rw [bind_of_ok (show getRequest r _ = .ok _ _ from rfl)]
    simp only [World.request_modifyRequest_self, hparent]
    exact ⟨_, rfl⟩
  · rw [if_neg_apply hlast]
    exact ⟨_, rfl⟩

lemma census_empty : (World.empty : World C).census.Sound fun _ => 0 where
  count _ := rfl
  finished hr := absurd hr (Nat.not_lt_zero _)
  fresh _ := ⟨rfl, rfl⟩
  later _ := rfl

lemma Run.counted {steps : List (Step C)} {w : World C} (h : Run steps w) :
    w.census.Sound fun _ => 0 := by
  induction h with
  | empty => exact census_empty
  | step h hruns ih => exact (Call.exec_counted hruns.1 ih hruns.2).1

/-- The world before a step of a run is the world after a run. -/
lemma Run.before {steps : List (Step C)} {w : World C} (h : Run steps w) {step : Step C}
    (hstep : step ∈ steps) : (∃ steps', Run steps' step.before) ∧ step.Runs := by
  induction h with
  | empty => exact absurd hstep List.not_mem_nil
  | @step steps last h hruns ih =>
    rcases List.mem_append.1 hstep with hmem | hmem
    · exact ih hmem
    · rw [List.mem_singleton.1 hmem]
      exact ⟨⟨steps, h⟩, hruns⟩

/-- **Receivers are counted.**  After every run, what receives the response of a request is counted,
and the request is finished exactly if there is nothing any more; and no step of the run makes a
request unfinished. -/
theorem Run.countsReceivers {steps : List (Step C)} {w : World C} (h : Run steps w) :
    (∀ r < w.requests, w.CountsReceivers r) ∧
      ∀ step ∈ steps, ∀ r < step.before.requests, (step.before.request r).isFinished = true →
        (step.after.request r).isFinished = true := by
  have hsound := h.counted
  constructor
  · intro r hr
    have hcount : (w.request r).receiversCount = w.receivers r := hsound.count r
    refine ⟨hcount, ?_, removeReceiver_returns⟩
    rw [← hcount]
    exact hsound.finished hr
  · intro step hstep r hr hfinished
    obtain ⟨⟨steps', hbefore⟩, hruns⟩ := h.before hstep
    exact (Call.exec_counted hruns.1 hbefore.counted hruns.2).2.finished hr hfinished

/-- A request with a response receiver, a pipeline builder and a pipelined client is responded
to, and everything is dropped. -/
def receiverCalls : List (Call unitChan) :=
  [.requestResponsePipeline (), .build 1 (), .cloneTracker 0, .dropTracker 1, .respond 0,
    .responderRespond 0 (), .dropTracker 0, .dropTracker 2]

theorem Run.countsReceivers_pipeline :
    ∃ steps, ∃ w : World unitChan, Run steps w ∧ steps.map Step.call = receiverCalls ∧
      (∀ r < w.requests, w.CountsReceivers r) ∧
      ∀ step ∈ steps, ∀ r < step.before.requests, (step.before.request r).isFinished = true →
        (step.after.request r).isFinished = true := by
  obtain ⟨steps, hrun, hcalls⟩ := Run.empty.runCalls
    (show Channel.runCalls receiverCalls World.empty = some _ from rfl)
  exact ⟨steps, _, hrun, hcalls, Run.countsReceivers hrun⟩

end Recapn.Channel
