/-
# What holds at every step of every thread

Whatever the order of their steps, the books stay sound, every receiver in use is that of one
thread, and a thread has the locks that it took.  A step of one thread leaves the others their locks
and receivers, and a channel that was resolved stays what it is.
-/
import Recapn.Channel.Threads

namespace Recapn.Channel

open Recapn.Lib Recapn.Lib.Prog

variable {C : Chan} {c d : ChannelId}

/-! ## What a step does to the books -/

/-- A step in which the receiver of `used` is in use: other receivers in use stay so, and what was
resolved stays what it is. -/
structure Books.Passes (used : Option ChannelId) (b b' : Books C) : Prop where
  channels : b.channels ≤ b'.channels
  loose : ∀ {c}, used ≠ some c → b.Loose c → b'.Loose c
  isSet : ∀ {c}, c < b.channels → (b.account c).isSet = true → (b'.account c).isSet = true
  resolved : ∀ {c res}, (b.account c).resolved = some res → (b'.account c).resolved = some res

section Passes

variable {used : Option ChannelId} {b b' b'' : Books C} {w w' : World C}

lemma Books.Passes.refl (used : Option ChannelId) (b : Books C) : b.Passes used b :=
  ⟨Nat.le_refl _, fun _ h => h, fun _ h => h, fun h => h⟩

lemma Books.Passes.trans (h : b.Passes used b') (h' : b'.Passes used b'') : b.Passes used b'' where
  channels := Nat.le_trans h.channels h'.channels
  loose hc hloose := h'.loose hc (h.loose hc hloose)
  isSet hc hset := h'.isSet (Nat.lt_of_lt_of_le hc h.channels) (h.isSet hc hset)
  resolved hres := h'.resolved (h.resolved hres)

lemma passes_of_eq (h : b' = b) : b.Passes used b' := h ▸ .refl used b

lemma World.Steady.passes (h : w.Steady w') : w.books.Passes used w'.books where
  channels := h.grows.channels
  loose _ hloose := h.grows.loose hloose
  isSet := h.grows.isSet
  resolved := h.resolved

lemma Books.Upgrades.passes (h : b.Upgrades b') : b.Passes used b' where
  channels := Nat.le_of_eq h.channels.symm
  loose _ hloose := h.loose hloose
  isSet {c} _ hset := by rw [h.isSet c, hset]
  resolved {c res} hres := by
    rcases h.account c with heq | ⟨-, heq⟩
    · rw [heq, hres]
    · rw [heq]
      exact hres

/-- The account of a channel whose receiver is in use may become anything. -/
lemma Books.Loose.passes (h : b.Loose c) (a : Account C) : b.Passes (some c) (b.set c a) := by
  have hother : ∀ {d}, d ≠ c → (b.set c a).account d = b.account d :=
    fun hd => Books.account_set_of_ne b a hd
  refine ⟨Nat.le_refl _, fun {d} hne hd => ?_, fun {d} _ hset => ?_, fun {d res} hres => ?_⟩
  · have hdc : d ≠ c := by
      rintro rfl
      exact hne rfl
    refine ⟨hd.lt, ?_, ?_, hd.receiver, hd.freed⟩
    · rw [hother hdc]
      exact hd.unresolved
    · rw [hother hdc]
      exact hd.parentRequest
  · have hdc : d ≠ c := by
      rintro rfl
      rw [h.unresolved.1] at hset
      cases hset
    rw [hother hdc, hset]
  · have hdc : d ≠ c := by
      rintro rfl
      rw [h.unresolved.resolved] at hres
      cases hres
    rw [hother hdc, hres]

/-- A receiver is moved into a call, or comes back from one. -/
lemma passes_holdReceiver {held : Bool} (h : used = some c ∨ b.receiver c = true) :
    b.Passes used (b.holdReceiver c held) where
  channels := Nat.le_refl _
  loose {d} hne hd := by
    have hdc : d ≠ c := by
      rintro rfl
      rcases h with h | h
      · exact hne h
      · rw [hd.receiver] at h
        cases h
    refine ⟨hd.lt, hd.unresolved, hd.parentRequest, ?_, hd.freed⟩
    exact (Function.update_of_ne hdc held b.receiver).trans hd.receiver
  isSet _ hset := hset
  resolved hres := hres

lemma passes_forwardLocked {extra : ChannelId → ℕ} {self otherShared other : ChannelId} {u : Unit}
    (hsound : Sound extra w) (hself : w.books.Loose self)
    (h : forwardLocked self otherShared other w = .ok u w') :
    w.books.Passes (some self) w'.books := by
  rw [(forwardLocked_ok hsound h).1]
  have hadd : w.books.Passes (some self) (w.books.addSender other) := by
    have hgrows := Books.grows_withCount w.books other ((w.books.account other).senderCount + 1)
    refine ⟨hgrows.channels, fun _ hloose => hgrows.loose hloose, hgrows.isSet, fun {d res} hres => ?_⟩
    unfold Books.addSender
    by_cases hd : d = other
    · rw [hd, Books.account_set_self]
      rw [hd] at hres
      exact hres
    · rw [Books.account_set_of_ne _ _ hd, hres]
  exact hadd.trans (hself.addSender.passes _)

end Passes

/-- When a channel is dropped or closed, none is forwarded. -/
lemma next_of_set {w w' : World C} {a : Account C} (hc : w.books.Loose c) (ha : a.held = none)
    (hbooks : w'.books = w.books.set c a) : w'.next = w.next := by
  refine next_congr fun d => ?_
  rw [hbooks]
  by_cases hd : d = c
  · rw [hd, Books.account_set_self, ha, hc.unresolved.held]
  · rw [Books.account_set_of_ne _ _ hd]

/-! ## Closing, part by part -/

section Close

variable {extra : ChannelId → ℕ} {w w' : World C} {u : Unit} {err : C.Error}

lemma closeLocked_books (hsound : Sound extra w) (h : closeLocked c err w = .ok u w') :
    w'.books = w.books.resolve c (.error err) ∧ w'.queues = w.queues := by
  obtain ⟨waker, w₀, hwaker, hresolve⟩ := bind_eq_ok.1 h
  have hbooks₀ := (fixes_books (fixes_takeWaker c)).ok hwaker
  have hqueues₀ := (fixes_queues (fixes_takeWaker c)).ok hwaker
  have hsound₀ : Sound extra w₀ := by
    unfold Sound
    rw [hbooks₀]
    exact hsound
  obtain ⟨hbooks, hqueues⟩ := books_resolve (hsound₀.channel_isOpen c) hresolve
  rw [hbooks₀] at hbooks
  exact ⟨hbooks, hqueues.trans hqueues₀⟩

lemma fixes_books_closeBatch (c : ChannelId) (room : ℕ) :
    Prog.Fixes World.books (closeBatch c room : ChanM C _) := by
  induction room with
  | zero => exact fixes_pure _
  | succ room ih =>
    refine fixes_bind (fixes_books_popFront c) fun item => ?_
    rcases item with _ | item
    · exact fixes_pure _
    · refine fixes_bind (fixes_books (fixes_itemTakeParent item)) fun _ => ?_
      refine fixes_bind (fixes_books (fixes_intoItem item)) fun _ => ?_
      exact fixes_bind ih fun _ => fixes_pure _

/-- A batch is taken out of a queue: where nothing waited, nothing waits. -/
lemma closeBatch_queues {room : ℕ} {items : List (LinkItem C)} (h : closeBatch c room w = .ok items w')
    (hd : w.queues d = []) : w'.queues d = [] := by
  induction room generalizing w items with
  | zero =>
    cases h
    exact hd
  | succ room ih =>
    rcases closeBatch_succ h with ⟨-, rfl, -⟩ | ⟨item, rest, w₁, items', -, htakes, hbatch⟩
    · exact hd
    · exact ih hbatch (nil_of_received htakes.queue htakes.queues hd)

lemma fixes_hold (item : LinkItem C) : Prog.Fixes World.core item.hold := by
  rcases item with r | event
  · exact fixes_setOwner r _
  · exact fixes_pure _

lemma fixes_holdAll (items : List (LinkItem C)) : Prog.Fixes World.core (holdAll items) := by
  induction items with
  | nil => exact fixes_pure _
  | cons item items ih => exact fixes_bind (fixes_hold item) fun _ => ih

lemma takeBatch_ok {items : List (LinkItem C)} (h : takeBatch c w = .ok items w') :
    ∃ w₁, closeBatch c batchSize w = .ok items w₁ ∧ holdAll items w₁ = .ok () w' := by
  obtain ⟨items', w₁, hbatch, hrest⟩ := bind_eq_ok.1 h
  obtain ⟨_, hhold, rfl⟩ := bind_pure_ok hrest
  exact ⟨w₁, hbatch, hhold⟩

lemma fixes_books_takeBatch (c : ChannelId) :
    Prog.Fixes World.books (takeBatch c : ChanM C _) := by
  refine fixes_bind (fixes_books_closeBatch c batchSize) fun items => ?_
  exact fixes_bind (fixes_books (fixes_holdAll items)) fun _ => fixes_pure _

lemma takeBatch_queues {items : List (LinkItem C)} (h : takeBatch c w = .ok items w')
    (hd : w.queues d = []) : w'.queues d = [] := by
  obtain ⟨w₁, hbatch, hhold⟩ := takeBatch_ok h
  rw [(fixes_queues (fixes_holdAll items)).ok hhold]
  exact closeBatch_queues hbatch hd

lemma fixes_routes_respondWithErr (err : C.Error) (item : LinkItem C) :
    Prog.Fixes World.routes (item.respondWithErr err) := by
  rcases item with r | event
  · exact fixes_bind (fixes_routes (fixes_respond r)) fun _ =>
      fixes_routes_responderRespond r _
  · exact fixes_pure _

lemma fixes_routes_respondAll (err : C.Error) (items : List (LinkItem C)) :
    Prog.Fixes World.routes (respondAll err items) := by
  induction items with
  | nil => exact fixes_pure _
  | cons item items ih => exact fixes_bind (fixes_routes_respondWithErr err item) fun _ => ih

/-- The receiver of a channel that was resolved is dropped without more. -/
lemma dropReceiver_of_isSet (hset : (w.books.account c).isSet = true)
    (h : dropReceiver c w = .ok u w') : w'.books = w.books := by
  have hbooks := books_dropReceiver h
  rw [if_pos (show (w.channel c).state.isSet = true from hset)] at hbooks
  exact hbooks

end Close

/-! ## Threads and their locks -/

/-- The channels that a thread refers to are there, and it has the locks that it took. -/
def Thread.Fits (address : ChannelId → ℕ) (m : Machine C) (t : ThreadId) : Thread C → Prop
  | resolving _ this => this < m.world.channels
  | locking _ this => this < m.world.channels
  | locked _ channel this =>
    channel < m.world.channels ∧ this < m.world.channels ∧ m.lock channel = some t
  | targeting _ other this => other < m.world.channels ∧ this < m.world.channels
  | lockingA _ otherShared other => otherShared < m.world.channels ∧ other < m.world.channels
  | lockingB self otherShared other =>
    otherShared < m.world.channels ∧ other < m.world.channels ∧
      m.lock (lockA address self otherShared) = some t
  | lockedBoth self otherShared this =>
    otherShared < m.world.channels ∧ this < m.world.channels ∧
      m.lock self = some t ∧ m.lock otherShared = some t
  | draining self _ =>
    self < m.world.channels ∧ (m.world.books.account self).isSet = true ∧ m.lock self = some t
  | answering self _ _ _ => self < m.world.channels ∧ (m.world.books.account self).isSet = true
  | relocking self _ => self < m.world.channels ∧ (m.world.books.account self).isSet = true
  | _ => True

namespace Machine

variable {address : ChannelId → ℕ} {m m' : Machine C} {t t' : ThreadId} {now : Thread C}

/-- What holds of a machine whatever the order of the steps. -/
structure Valid (address : ChannelId → ℕ) (m : Machine C) : Prop where
  sound : Sound (fun _ => 0) m.world
  fresh : ∀ {c}, m.world.channels ≤ c → m.world.queues c = []
  fits : ∀ t, (m.thread t).Fits address m t
  loose : ∀ {t c}, (m.thread t).receiver = some c → m.world.books.Loose c
  alone : ∀ {t t' c}, (m.thread t).receiver = some c → (m.thread t').receiver = some c → t = t'

/-- The thread has found a channel that is not resolved, and puts items into the queue of `c`. -/
def PutsInto (m : Machine C) (t : ThreadId) (c : ChannelId) : Prop :=
  ∃ this, m.world.tryResolved this = none ∧
    ((∃ item, m.thread t = .locked item c this) ∨ ∃ self, m.thread t = .lockedBoth self c this)

/-- What a step of a thread does. -/
structure Effect (address : ChannelId → ℕ) (t : ThreadId) (now : Thread C) (m m' : Machine C) :
    Prop where
  thread : m'.thread = Function.update m.thread t now
  books : m.world.books.Passes (m.thread t).receiver m'.world.books
  next : m'.world.next = m.world.next ∨ ∃ self otherShared this,
    m.thread t = .lockedBoth self otherShared this ∧ m.world.tryResolved this = none ∧
      m'.world.next = Function.update m.world.next self (some this) ∧ m'.world.queues self = []
  queues : ∀ {c}, m.world.queues c = [] → m'.world.queues c = [] ∨ m.PutsInto t c
  lock : ∀ {c t'}, t' ≠ t → m.lock c = some t' → m'.lock c = some t'
  sound : Sound (fun _ => 0) m'.world
  fits : now.Fits address m' t
  receiver : ∀ {c}, now.receiver = some c → m'.world.books.Loose c ∧
    ((m.thread t).receiver = some c ∨ m.world.receiver c = true)

lemma Valid.putsInto_lt (hvalid : m.Valid address) (h : m.PutsInto t c) : c < m.world.channels := by
  have hfits := hvalid.fits t
  obtain ⟨this, -, ⟨item, ht⟩ | ⟨self, ht⟩⟩ := h
  · rw [ht] at hfits
    exact hfits.1
  · rw [ht] at hfits
    exact hfits.1

/-- What holds of another thread holds of it still. -/
lemma Fits.passes (h : now.Fits address m t')
    (hbooks : m.world.books.Passes (m.thread t).receiver m'.world.books)
    (hlock : ∀ {c}, m.lock c = some t' → m'.lock c = some t') : now.Fits address m' t' := by
  have hlt : ∀ {c}, c < m.world.channels → c < m'.world.channels := fun hc =>
    Nat.lt_of_lt_of_le hc hbooks.channels
  cases now with
  | resolving item this | locking item this => exact hlt h
  | locked item channel this => exact ⟨hlt h.1, hlt h.2.1, hlock h.2.2⟩
  | targeting self other this | lockingA self otherShared other => exact ⟨hlt h.1, hlt h.2⟩
  | lockingB self otherShared other => exact ⟨hlt h.1, hlt h.2.1, hlock h.2.2⟩
  | lockedBoth self otherShared this =>
    exact ⟨hlt h.1, hlt h.2.1, hlock h.2.2.1, hlock h.2.2.2⟩
  | draining self err => exact ⟨hlt h.1, hbooks.isSet h.1 h.2.1, hlock h.2.2⟩
  | answering self err items last | relocking self err => exact ⟨hlt h.1, hbooks.isSet h.1 h.2⟩
  | _ => trivial

/-- A step keeps what holds of the machine. -/
theorem Effect.valid (h : Effect address t now m m') (hvalid : m.Valid address) :
    m'.Valid address := by
  have hself : m'.thread t = now := by rw [h.thread, Function.update_self]
  have hother : ∀ {t'}, t' ≠ t → m'.thread t' = m.thread t' := fun ht => by
    rw [h.thread, Function.update_of_ne ht]
  -- the receivers of the other threads are not the one of this thread
  have hdistinct : ∀ {t' c}, t' ≠ t → (m.thread t').receiver = some c →
      now.receiver ≠ some c := by
    intro t' c ht hc hthread
    rcases (h.receiver hthread).2 with hold | hheld
    · exact ht (hvalid.alone hc hold)
    · have hloose := hvalid.loose hc
      rw [show m.world.receiver c = false from hloose.receiver] at hheld
      cases hheld
  refine ⟨h.sound, fun {c} hc => ?_, fun t' => ?_, fun {t' c} hc => ?_, fun {t' t'' c} hc hc' => ?_⟩
  · have hle := Nat.le_trans h.books.channels hc
    refine (h.queues (hvalid.fresh hle)).resolve_right fun hputs => ?_
    exact Nat.not_lt.2 hle (hvalid.putsInto_lt hputs)
  · by_cases ht : t' = t
    · rw [ht, hself]
      exact h.fits
    · rw [hother ht]
      exact Fits.passes (hvalid.fits t') h.books (h.lock ht)
  · by_cases ht : t' = t
    · rw [ht, hself] at hc
      exact (h.receiver hc).1
    · rw [hother ht] at hc
      exact h.books.loose (fun hold => ht (hvalid.alone hc hold)) (hvalid.loose hc)
  · by_cases ht : t' = t
    · by_cases ht' : t'' = t
      · rw [ht, ht']
      · rw [ht, hself] at hc
        rw [hother ht'] at hc'
        exact absurd hc (hdistinct ht' hc')
    · by_cases ht' : t'' = t
      · rw [ht', hself] at hc'
        rw [hother ht] at hc
        exact absurd hc' (hdistinct ht hc)
      · rw [hother ht] at hc
        rw [hother ht'] at hc'
        exact hvalid.alone hc hc'

/-! ### Locks -/

lemma lock_acquire (hfree : m.lock c = none) {d : ChannelId} (hd : m.lock d = some t') :
    (m.acquire t c).lock d = some t' := by
  have hne : d ≠ c := by
    rintro rfl
    rw [hfree] at hd
    cases hd
  exact (Function.update_of_ne hne ..).trans hd

lemma lock_acquire_self (m : Machine C) (t : ThreadId) (c : ChannelId) :
    (m.acquire t c).lock c = some t :=
  Function.update_self ..

lemma lock_release (hown : m.lock c = some t) (ht : t' ≠ t) {d : ChannelId}
    (hd : m.lock d = some t') : (m.release c).lock d = some t' := by
  have hne : d ≠ c := by
    rintro rfl
    rw [hown, Option.some.injEq] at hd
    exact ht hd.symm
  exact (Function.update_of_ne hne ..).trans hd

lemma lock_release_both {c' : ChannelId} (hown : m.lock c = some t) (hown' : m.lock c' = some t)
    (ht : t' ≠ t) {d : ChannelId} (hd : m.lock d = some t') :
    ((m.release c).release c').lock d = some t' := by
  have hne : ∀ {x}, m.lock x = some t → d ≠ x := by
    rintro x hx rfl
    rw [hx, Option.some.injEq] at hd
    exact ht hd.symm
  exact (Function.update_of_ne (hne hown') ..).trans ((Function.update_of_ne (hne hown) ..).trans hd)

/-! ### The steps -/

/-- The thread goes on, and the world is what it was. -/
lemma effect_goto (hvalid : m.Valid address)
    (hlock : ∀ {c t'}, t' ≠ t → m.lock c = some t' → m'.lock c = some t')
    (hthread : m'.thread = Function.update m.thread t now) (hworld : m'.world = m.world)
    (hfits : now.Fits address m' t)
    (hreceiver : ∀ {c}, now.receiver = some c → (m.thread t).receiver = some c) :
    Effect address t now m m' where
  thread := hthread
  books := by
    rw [hworld]
    exact .refl _ _
  next := by
    rw [hworld]
    exact Or.inl rfl
  queues hc := by
    rw [hworld]
    exact Or.inl hc
  lock := hlock
  sound := by
    rw [hworld]
    exact hvalid.sound
  fits := hfits
  receiver hc := by
    rw [hworld]
    exact ⟨hvalid.loose (hreceiver hc), Or.inl (hreceiver hc)⟩

/-- The thread goes on, and the books are what they were. -/
lemma effect_books (hvalid : m.Valid address)
    (hlock : ∀ {c t'}, t' ≠ t → m.lock c = some t' → m'.lock c = some t')
    (hthread : m'.thread = Function.update m.thread t now)
    (hbooks : m'.world.books = m.world.books)
    (hqueues : ∀ {c}, m.world.queues c = [] → m'.world.queues c = [] ∨ m.PutsInto t c)
    (hfits : now.Fits address m' t)
    (hreceiver : ∀ {c}, now.receiver = some c → (m.thread t).receiver = some c) :
    Effect address t now m m' where
  thread := hthread
  books := passes_of_eq hbooks
  next := Or.inl (next_of_tryResolved (tryResolved_of_books hbooks))
  queues := hqueues
  lock := hlock
  sound := by
    unfold Sound
    rw [hbooks]
    exact hvalid.sound
  fits := hfits
  receiver hc := by
    rw [hbooks]
    exact ⟨hvalid.loose (hreceiver hc), Or.inl (hreceiver hc)⟩

/-- A receiver that the program holds is moved into a call. -/
lemma effect_hold (hvalid : m.Valid address) {w : World C} {self : ChannelId}
    (hself : m.world.receiver self = true) (hexec : holdReceiver self false m.world = .ok () w)
    (hfits : now.Fits address ((m.withWorld w).goto t now) t)
    (hreceiver : ∀ {c}, now.receiver = some c → c = self) :
    Effect address t now m ((m.withWorld w).goto t now) := by
  cases hexec
  refine ⟨rfl, passes_holdReceiver (Or.inr hself), Or.inl rfl, fun hc => Or.inl hc, fun _ h => h,
    Books.Sound.takeReceiver hvalid.sound self, hfits, fun hc => ?_⟩
  rw [hreceiver hc]
  exact ⟨Books.Sound.loose hvalid.sound hself, Or.inr hself⟩

lemma Valid.fits_at (hvalid : m.Valid address) (ht : m.thread t = now) : now.Fits address m t :=
  ht ▸ hvalid.fits t

/-- The sender of a program leads to a channel that is there. -/
lemma Valid.sender_lt (hvalid : m.Valid address) {s : SenderId} {sender : Sender}
    (hs : m.world.sender s = some sender) : sender.shared < m.world.channels := by
  obtain ⟨-, hsender⟩ := getSender_ok (getSender_of_sender hs)
  exact hvalid.sound.sender_lt hsender

/-- The channel that a channel was forwarded to is there. -/
lemma Valid.forwarded_lt (hvalid : m.Valid address) {sender : Sender}
    (hforwarded : m.world.tryResolved c = some (.forwarded sender)) :
    sender.shared < m.world.channels :=
  hvalid.sound.target (tryResolved_eq_forwarded.1 hforwarded)

lemma linkItem_books {w w' : World C} {this channel : ChannelId} {item : LinkItem C} {u : Unit}
    (h : linkItem this channel item w = .ok u w') :
    w'.books = w.books ∧ ∀ d, d ≠ channel → w'.queues d = w.queues d := by
  cases item with
  | request req =>
    have hqueues := sendLocked_queues h
    refine ⟨(fixes_books_sendLocked this channel req).ok h, fun d hd => ?_⟩
    rw [hqueues]
    by_cases hfinished : (w.request req).isFinished = true
    · rw [if_pos hfinished]
    · rw [if_neg hfinished, Function.update_of_ne hd]
  | event event =>
    have hqueues := sendEventLocked_queues h
    refine ⟨(fixes_books_sendEventLocked channel event).ok h, fun d hd => ?_⟩
    rw [hqueues, Function.update_of_ne hd]

/-- A receiver is used up: it ends its channel, and none is forwarded. -/
lemma effect_use (hvalid : m.Valid address) {self : ChannelId} {a : Account C}
    (hself : (m.thread t).receiver = some self) (hbooks : m'.world.books = m.world.books.set self a)
    (hqueues : m'.world.queues = m.world.queues) (ha : a.held = none)
    (hsound : Sound (fun _ => 0) m'.world)
    (hlock : ∀ {c t'}, t' ≠ t → m.lock c = some t' → m'.lock c = some t')
    (hthread : m'.thread = Function.update m.thread t now) (hfits : now.Fits address m' t)
    (hreceiver : now.receiver = none) : Effect address t now m m' where
  thread := hthread
  books := by
    rw [hbooks, hself]
    exact (hvalid.loose hself).passes a
  next := Or.inl (next_of_set (hvalid.loose hself) ha hbooks)
  queues hc := by
    rw [hqueues]
    exact Or.inl hc
  lock := hlock
  sound := hsound
  fits := hfits
  receiver hc := by
    rw [hreceiver] at hc
    cases hc

/-- **Every step keeps what holds of the machine.** -/
theorem Step.effect (hvalid : m.Valid address) (hstep : Step address t m m') :
    ∃ now, Effect address t now m m' := by
  cases hstep with
  | @call call out w hidle hatomic hallowed hlocks hexec =>
    have hsteady := Call.steady hatomic hvalid.sound (hvalid.fresh (Nat.le_refl _)) hexec
    refine ⟨.idle, ?_, hsteady.passes, Or.inl hsteady.next, fun hc => Or.inl (hsteady.queues hc),
      fun _ h => h, Call.exec_sound hallowed hvalid.sound hexec, trivial, fun hc => nomatch hc⟩
    show m.thread = _
    rw [← hidle, Function.update_eq_self]
  | @send s self req w hidle hs howner hexec =>
    have hbooks := (fixes_books (fixes_setOwner req .none)).ok hexec
    have hqueues := (fixes_queues (fixes_setOwner req .none)).ok hexec
    refine ⟨_, effect_books hvalid (fun _ h => h) rfl hbooks (fun hc => ?_) ?_ fun hc => nomatch hc⟩
    · left
      show w.queues _ = []
      rw [hqueues, hc]
    · show self.shared < w.channels
      rw [show w.channels = m.world.channels from congrArg Books.channels hbooks]
      exact hvalid.sender_lt hs
  | @sendEvent s self event hidle hs =>
    exact ⟨_, effect_goto hvalid (fun _ h => h) rfl rfl (hvalid.sender_lt hs) fun hc => nomatch hc⟩
  | found ht hnone =>
    have hfits := hvalid.fits_at ht
    exact ⟨_, effect_goto hvalid (fun _ h => h) rfl rfl hfits fun hc => nomatch hc⟩
  | follow ht hforwarded =>
    exact ⟨_, effect_goto hvalid (fun _ h => h) rfl rfl (hvalid.forwarded_lt hforwarded)
      fun hc => nomatch hc⟩
  | @refuse item this res w ht hended hexec =>
    have hqueues := (fixes_queues (fixes_intoItem item)).ok hexec
    refine ⟨_, effect_books hvalid (fun _ h => h) rfl ((fixes_books (fixes_intoItem item)).ok hexec)
      (fun hc => ?_) trivial fun hc => nomatch hc⟩
    left
    show w.queues _ = []
    rw [hqueues, hc]
  | @lock item this ht hfree =>
    have hfits := hvalid.fits_at ht
    exact ⟨_, effect_goto hvalid (fun _ h => lock_acquire hfree h) rfl rfl
      ⟨hfits, hfits, lock_acquire_self m t this⟩ fun hc => nomatch hc⟩
  | followLocked ht hforwarded =>
    have hfits := hvalid.fits_at ht
    exact ⟨_, effect_goto hvalid (fun _ h => h) rfl rfl
      ⟨hfits.1, hvalid.forwarded_lt hforwarded, hfits.2.2⟩ fun hc => nomatch hc⟩
  | @refuseLocked item channel this res w ht hended hexec =>
    have hfits := hvalid.fits_at ht
    have hqueues := (fixes_queues (fixes_intoItem item)).ok hexec
    refine ⟨_, effect_books hvalid (fun hne h => lock_release hfits.2.2 hne h) rfl
      ((fixes_books (fixes_intoItem item)).ok hexec) (fun hc => ?_) trivial fun hc => nomatch hc⟩
    left
    show w.queues _ = []
    rw [hqueues, hc]
  | @link item channel this w ht hnone hexec =>
    have hfits := hvalid.fits_at ht
    obtain ⟨hbooks, hqueues⟩ := linkItem_books hexec
    refine ⟨_, effect_books hvalid (fun hne h => lock_release hfits.2.2 hne h) rfl hbooks
      (fun {d} hd => ?_) trivial fun hc => nomatch hc⟩
    by_cases hdc : d = channel
    · rw [hdc]
      exact Or.inr ⟨this, hnone, Or.inl ⟨item, ht⟩⟩
    · left
      show w.queues d = []
      rw [hqueues d hdc, hd]
  | @forwardTo self s other w hidle hreceiver hs hexec =>
    refine ⟨_, effect_hold hvalid hreceiver hexec ?_ fun hc => (Option.some.inj hc).symm⟩
    cases hexec
    exact ⟨hvalid.sender_lt hs, hvalid.sender_lt hs⟩
  | target ht hnone hne =>
    have hfits := hvalid.fits_at ht
    exact ⟨_, effect_goto hvalid (fun _ h => h) rfl rfl ⟨hfits.2, hfits.1⟩ fun hc => by rw [ht]; exact hc⟩
  | followTarget ht hforwarded =>
    have hfits := hvalid.fits_at ht
    exact ⟨_, effect_goto hvalid (fun _ h => h) rfl rfl ⟨hfits.1, hvalid.forwarded_lt hforwarded⟩
      fun hc => by rw [ht]; exact hc⟩
  | @targetEnded self other this res ht hended =>
    refine ⟨.ended self res, effect_goto hvalid (fun _ h => h) rfl rfl ?_ fun hc => ?_⟩
    · cases res <;> trivial
    · rw [ht]
      cases res <;> exact hc
  | @targetSelf self other this w ht hnone heq hexec =>
    have hself : (m.thread t).receiver = some self := by rw [ht]; rfl
    cases hexec
    exact ⟨_, rfl, passes_holdReceiver (Or.inl hself), Or.inl rfl, fun hc => Or.inl hc, fun _ h => h,
      Books.Sound.giveReceiver hvalid.sound (hvalid.loose hself), trivial, fun hc => nomatch hc⟩
  | @lockA self otherShared other ht hfree =>
    have hfits := hvalid.fits_at ht
    exact ⟨_, effect_goto hvalid (fun _ h => lock_acquire hfree h) rfl rfl
      ⟨hfits.1, hfits.2, lock_acquire_self m t _⟩ fun hc => by rw [ht]; exact hc⟩
  | @lockB self otherShared other ht hfree =>
    have hfits := hvalid.fits_at ht
    refine ⟨_, effect_goto hvalid (fun _ h => lock_acquire hfree h) rfl rfl
      ⟨hfits.1, hfits.2.1, ?_⟩ fun hc => by rw [ht]; exact hc⟩
    have hlocks : ∀ c, Channel.lockA address self otherShared = c ∨
        Channel.lockB address self otherShared = c →
        (m.acquire t (Channel.lockB address self otherShared)).lock c = some t := by
      rintro c (rfl | rfl)
      · exact lock_acquire hfree hfits.2.2
      · exact lock_acquire_self m t _
    rcases lockA_lockB address self otherShared with ⟨ha, hb⟩ | ⟨ha, hb⟩
    · exact ⟨hlocks self (Or.inl ha), hlocks otherShared (Or.inr hb)⟩
    · exact ⟨hlocks self (Or.inr hb), hlocks otherShared (Or.inl ha)⟩
  | followBoth ht hforwarded =>
    have hfits := hvalid.fits_at ht
    exact ⟨_, effect_goto hvalid (fun _ h => h) rfl rfl
      ⟨hfits.1, hvalid.forwarded_lt hforwarded, hfits.2.2⟩ fun hc => by rw [ht]; exact hc⟩
  | @bothEnded self otherShared this res ht hended =>
    have hfits := hvalid.fits_at ht
    refine ⟨.ended self res, effect_goto hvalid (fun hne h => ?_) rfl rfl ?_ fun hc => ?_⟩
    · exact lock_release_both hfits.2.2.2 hfits.2.2.1 hne h
    · cases res <;> trivial
    · rw [ht]
      cases res <;> exact hc
  | @splice self otherShared this w ht hnone hexec =>
    have hself : (m.thread t).receiver = some self := by rw [ht]; rfl
    have hfits := hvalid.fits_at ht
    have hloose := hvalid.loose hself
    obtain ⟨-, -, hresolved⟩ := forwardLocked_routes hvalid.sound hexec
    have hqueues := (forwardLocked_ok hvalid.sound hexec).2
    have hempty : w.queues self = [] := by rw [hqueues, Function.update_self]
    refine ⟨.idle, rfl, ?_, Or.inr ⟨self, otherShared, this, ht, hnone, ?_, hempty⟩, fun {d} hd => ?_,
      fun hne h => ?_, hvalid.sound.forwardLocked hloose hfits.2.1 hexec, trivial,
      fun hc => nomatch hc⟩
    · rw [hself]
      exact passes_forwardLocked hvalid.sound hloose hexec
    · exact next_of_forwarded hresolved
    · by_cases hother : d = otherShared
      · rw [hother]
        exact Or.inr ⟨this, hnone, Or.inr ⟨self, ht⟩⟩
      · left
        show w.queues d = []
        by_cases hds : d = self
        · rw [hds, hempty]
        · rw [hqueues, Function.update_of_ne hds, Function.update_of_ne hother, hd]
    · exact lock_release_both hfits.2.2.2 hfits.2.2.1 hne h
  | @dropReceiver self w hidle hreceiver hexec =>
    exact ⟨_, effect_hold hvalid hreceiver hexec trivial fun hc => (Option.some.inj hc).symm⟩
  | @dropped self w ht hexec =>
    have hself : (m.thread t).receiver = some self := by rw [ht]; rfl
    have hloose := hvalid.loose hself
    have hbooks := books_dropReceiver hexec
    have hnot : ¬ (m.world.channel self).state.isSet = true := by
      rw [show (m.world.channel self).state.isSet = false from hloose.unresolved.1]
      exact Bool.false_ne_true
    rw [if_neg hnot] at hbooks
    exact ⟨_, effect_use hvalid hself hbooks ((fixes_queues_dropReceiver self).ok hexec)
      hloose.unresolved.held (hvalid.sound.dropReceiver hloose hexec) (fun _ h => h) rfl trivial rfl⟩
  | @close self err w hidle hreceiver hexec =>
    exact ⟨_, effect_hold hvalid hreceiver hexec trivial fun hc => (Option.some.inj hc).symm⟩
  | @closeLocked self err w ht hfree hexec =>
    have hself : (m.thread t).receiver = some self := by rw [ht]; rfl
    have hloose := hvalid.loose hself
    obtain ⟨hbooks, hqueues⟩ := closeLocked_books hvalid.sound hexec
    refine ⟨_, effect_use hvalid hself hbooks hqueues rfl ?_ (fun _ h => lock_acquire hfree h) rfl
      ⟨?_, ?_, lock_acquire_self (m.withWorld w) t self⟩ rfl⟩
    · show Books.Sound w.books _
      rw [hbooks]
      exact Books.Sound.close hvalid.sound hloose err
    · show w.books.channels > self
      rw [hbooks]
      exact hloose.lt
    · show (w.books.account self).isSet = true
      rw [hbooks]
      exact congrArg Account.isSet (Books.account_set_self ..)
  | @drain self err items w ht hexec =>
    have hfits := hvalid.fits_at ht
    have hbooks := (fixes_books_takeBatch self).ok hexec
    refine ⟨_, effect_books hvalid (fun hne h => lock_release hfits.2.2 hne h) rfl hbooks
      (fun hc => Or.inl (takeBatch_queues hexec hc)) ?_ fun hc => nomatch hc⟩
    show self < w.books.channels ∧ (w.books.account self).isSet = true
    rw [hbooks]
    exact ⟨hfits.1, hfits.2.1⟩
  | @answer self err item items last w ht hlocks hexec =>
    have hfits := hvalid.fits_at ht
    obtain ⟨hsound, hupgrades⟩ := tame_respondWithErr err item _ _ _ _ hvalid.sound hexec
    have hroutes := (fixes_routes_respondWithErr err item).ok hexec
    have hpasses : m.world.books.Passes (m.thread t).receiver w.books := Books.Upgrades.passes hupgrades
    have hqueues : w.queues = m.world.queues := congrArg Routes.queues hroutes
    refine ⟨.answering self err items last, rfl, hpasses, Or.inl ?_, fun hc => Or.inl ?_,
      fun _ h => h, hsound, ⟨Nat.lt_of_lt_of_le hfits.1 hpasses.channels,
      hpasses.isSet hfits.1 hfits.2⟩, fun hc => nomatch hc⟩
    · exact next_of_tryResolved (congrArg Routes.resolved hroutes)
    · show w.queues _ = []
      rw [hqueues, hc]
  | @answered self err ht =>
    have hfits := hvalid.fits_at ht
    exact ⟨_, effect_goto hvalid (fun _ h => h) rfl rfl hfits fun hc => nomatch hc⟩
  | @relock self err ht hfree =>
    have hfits := hvalid.fits_at ht
    exact ⟨_, effect_goto hvalid (fun _ h => lock_acquire hfree h) rfl rfl
      ⟨hfits.1, hfits.2, lock_acquire_self m t self⟩ fun hc => nomatch hc⟩
  | @closed self err w ht hexec =>
    have hfits := hvalid.fits_at ht
    have hbooks : w.books = m.world.books := dropReceiver_of_isSet hfits.2 hexec
    refine ⟨_, effect_books hvalid (fun _ h => h) rfl hbooks (fun {d} hd => Or.inl ?_) trivial
      fun hc => nomatch hc⟩
    show w.queues d = []
    rw [(fixes_queues_dropReceiver self).ok hexec, hd]

lemma Step.valid (hvalid : m.Valid address) (hstep : Step address t m m') : m'.Valid address := by
  obtain ⟨now, heffect⟩ := Step.effect hvalid hstep
  exact heffect.valid hvalid

lemma valid_start : (start : Machine C).Valid address where
  sound := sound_empty
  fresh _ := rfl
  fits _ := trivial
  loose hc := nomatch hc
  alone hc := nomatch hc

/-- Whatever the order of the steps, the machine is valid. -/
theorem Reached.valid {ok : Machine C → ThreadId → Prop} (h : Reached address ok m) :
    m.Valid address :=
  h.invariant valid_start fun _ hvalid _ hstep => Step.valid hvalid hstep

end Machine

end Recapn.Channel
