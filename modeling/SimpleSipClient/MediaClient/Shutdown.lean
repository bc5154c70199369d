import SimpleSipClient.Foundation.Runs

/-! # The destructor against the two worker threads

The destructor sets the flag, releases what the client was built on and joins one of the two
threads on the way. The steps of the three threads come in any order. The pool of the
client holds the records of both threads; the factory frees a pool as soon as it is
released. PJLIB is built with `PJ_DEBUG` or without.
-/

namespace SimpleSipClient.Shutdown

open Foundation

inductive Thread where
  | destructor
  | keepAlive
  | eventLoop
  deriving DecidableEq, Repr

/-- The records are what `m_keepalivethread` and `m_eventloopthread` point to, in the memory of
`m_sipPool`. -/
inductive Resource where
  | sipEndpt
  | sipPool
  | cachingPool
  | keepAliveRecord
  | eventLoopRecord
  deriving DecidableEq, Repr

inductive Event where
  | use (user : Thread) (resource : Resource) (live : Bool)
  deriving DecidableEq, Repr

/-- What the destructor does next. `joining` waits for the other thread. -/
inductive Destructor where
  | setQuit
  | unregisterClient
  | poolRelease
  | threadJoin
  | joining
  | endptDestroy
  | cachingPoolDestroy
  | pjShutdown
  | returned
  deriving DecidableEq, Repr

inductive KeepAlive where
  | quitTest
  | sleep
  | sendKeepAlive
  | ended
  deriving DecidableEq, Repr

inductive EventLoop where
  | quitTest
  | handleEvents
  | ended
  deriving DecidableEq, Repr

structure State where
  quitFlag : Bool
  sipEndpt : Bool
  sipPool : Bool
  cachingPool : Bool
  destructor : Destructor
  keepAlive : KeepAlive
  eventLoop : EventLoop
  deriving DecidableEq, Repr

abbrev Step := Traced Event State Unit

/-- `startEventLoop` has started both threads. -/
def running : State where
  quitFlag := false
  sipEndpt := true
  sipPool := true
  cachingPool := true
  destructor := .setQuit
  keepAlive := .quitTest
  eventLoop := .quitTest

def State.live (s : State) : Resource → Bool
  | .sipEndpt => s.sipEndpt
  | .sipPool | .keepAliveRecord | .eventLoopRecord => s.sipPool
  | .cachingPool => s.cachingPool

def use (user : Thread) (resource : Resource) : Step := do
  let s ← Traced.get
  Traced.emit (.use user resource (s.live resource))

/-- What is created on the endpoint comes from `m_caching_pool`. -/
def useEndpt (user : Thread) : Step := do
  use user .sipEndpt
  use user .cachingPool

/-- What a thread calls takes locks. With `PJ_DEBUG` a lock copies the name of its owner out of
the owner's record. -/
def useLocked (debug : Bool) (user : Thread) (record : Resource) : Step := do
  useEndpt user
  if debug then use user record else pure ()

/-! ## The three threads -/

/-- `~MediaClient` and, from the second step on, `destroy`. -/
def destructorStep (s : State) : Step :=
  match s.destructor with
  | .setQuit => Traced.set { s with quitFlag := true, destructor := .unregisterClient }
  | .unregisterClient => do
      useEndpt .destructor
      Traced.set { s with destructor := .poolRelease }
  | .poolRelease => do
      use .destructor .sipPool
      Traced.set { s with sipPool := false, destructor := .threadJoin }
  | .threadJoin => do
      use .destructor .keepAliveRecord
      Traced.set { s with destructor := .joining }
  | .joining => Traced.set { s with destructor := .endptDestroy }
  | .endptDestroy => do
      useEndpt .destructor
      Traced.set { s with sipEndpt := false, destructor := .cachingPoolDestroy }
  | .cachingPoolDestroy => do
      use .destructor .cachingPool
      Traced.set { s with cachingPool := false, destructor := .pjShutdown }
  | .pjShutdown => Traced.set { s with destructor := .returned }
  | .returned => pure ()

def keepAliveStep (debug : Bool) (s : State) : Step :=
  match s.keepAlive with
  | .quitTest => Traced.set { s with keepAlive := if s.quitFlag then .ended else .sleep }
  | .sleep => Traced.set { s with keepAlive := .sendKeepAlive }
  | .sendKeepAlive => do
      useLocked debug .keepAlive .keepAliveRecord
      Traced.set { s with keepAlive := .quitTest }
  | .ended => pure ()

def eventLoopStep (debug : Bool) (s : State) : Step :=
  match s.eventLoop with
  | .quitTest => Traced.set { s with eventLoop := if s.quitFlag then .ended else .handleEvents }
  | .handleEvents => do
      useLocked debug .eventLoop .eventLoopRecord
      Traced.set { s with eventLoop := .quitTest }
  | .ended => pure ()

def perform (debug : Bool) : Thread → Step
  | .destructor => do
      let s ← Traced.get
      destructorStep s
  | .keepAlive => do
      let s ← Traced.get
      keepAliveStep debug s
  | .eventLoop => do
      let s ← Traced.get
      eventLoopStep debug s

/-- The join returns when the keep-alive thread has ended. -/
def possible (s : State) : Thread → Bool
  | .destructor => s.destructor ≠ .returned && (s.destructor ≠ .joining || s.keepAlive = .ended)
  | .keepAlive => s.keepAlive ≠ .ended
  | .eventLoop => s.eventLoop ≠ .ended

/-! ## An orderly shutdown -/

def Event.onLive : Event → Prop
  | .use _ _ live => live = true

/-- The same for the two worker threads alone. -/
def Event.workerOnLive : Event → Prop
  | .use user _ live => user ≠ .destructor → live = true

/-- The endpoint outlives both threads. -/
def Orderly (s : State) : Prop :=
  s.sipEndpt = false → s.keepAlive = .ended ∧ s.eventLoop = .ended

section Uses

variable {Q : Event → Prop} {I : State → Prop} {s : State} {user : Thread} {f : Unit → Step}

theorem keeps_use {resource : Resource} (h : Q (.use user resource (s.live resource)))
    (hf : Keeps Q I (f ()) s) : Keeps Q I (use user resource >>= f) s := by
  have hrun : use user resource s = ⟨[.use user resource (s.live resource)], .ok ((), s)⟩ := rfl
  apply keeps_bind (J := fun t => t = s)
  · rw [Keeps, hrun]
    exact ⟨by simpa using h, fun t ht => by cases ht; rfl⟩
  · rintro t rfl
    exact hf

theorem keeps_useEndpt (he : Q (.use user .sipEndpt s.sipEndpt))
    (hc : Q (.use user .cachingPool s.cachingPool)) (hf : Keeps Q I (f ()) s) :
    Keeps Q I (useEndpt user >>= f) s := by
  have hrun : useEndpt user s = ⟨[.use user .sipEndpt s.sipEndpt,
      .use user .cachingPool s.cachingPool], .ok ((), s)⟩ := rfl
  apply keeps_bind (J := fun t => t = s)
  · rw [Keeps, hrun]
    exact ⟨by simp [he, hc], fun t ht => by cases ht; rfl⟩
  · rintro t rfl
    exact hf

theorem keeps_useLocked {debug : Bool} {record : Resource}
    (he : Q (.use user .sipEndpt s.sipEndpt)) (hc : Q (.use user .cachingPool s.cachingPool))
    (hr : debug = true → Q (.use user record (s.live record))) (hf : Keeps Q I (f ()) s) :
    Keeps Q I (useLocked debug user record >>= f) s := by
  apply keeps_bind (J := fun t => t = s)
  · apply keeps_useEndpt he hc
    cases debug with
    | false => exact keeps_pure rfl
    | true =>
        have hrun : use user record s = ⟨[.use user record (s.live record)], .ok ((), s)⟩ := rfl
        rw [if_pos rfl, Keeps, hrun]
        exact ⟨by simpa using hr rfl, fun t ht => by cases ht; rfl⟩
  · rintro t rfl
    exact hf

end Uses

/-! ## The records are released first -/

/-- The destructor has not released `m_sipPool` yet. -/
def Destructor.beforeRelease : Destructor → Bool
  | .setQuit | .unregisterClient | .poolRelease => true
  | _ => false

/-- With `PJ_DEBUG`, a call of a worker thread is made before its record is released. -/
def CallsEarly (debug : Bool) (x : Thread) (s : State) : Prop :=
  debug = true →
    x = .keepAlive ∧ s.keepAlive = .sendKeepAlive ∨ x = .eventLoop ∧ s.eventLoop = .handleEvents →
      s.destructor.beforeRelease = true

theorem lateCall_bad {debug : Bool} {Q : Event → Prop} {x : Thread} {s : State}
    (hQ : ∀ user resource, Q (.use user resource false) → user = .destructor)
    (hpool : s.sipPool = s.destructor.beforeRelease) (hx : ¬ CallsEarly debug x s) :
    ¬ GoodStep (perform debug) Q Orderly x s := by
  simp only [CallsEarly, Classical.not_imp, Bool.not_eq_true] at hx
  rcases hx with ⟨rfl, hcall, hlate⟩
  rw [hlate] at hpool
  rintro ⟨hlive, -⟩
  rcases hcall with ⟨rfl, hplace⟩ | ⟨rfl, hplace⟩
  · have hrecord : Q (.use .keepAlive .keepAliveRecord false) := by
      apply hlive
      simp [perform, keepAliveStep, hplace, useLocked, useEndpt, use, Traced.bind_run, State.live,
        hpool]
    cases hQ _ _ hrecord
  · have hrecord : Q (.use .eventLoop .eventLoopRecord false) := by
      apply hlive
      simp [perform, eventLoopStep, hplace, useLocked, useEndpt, use, Traced.bind_run, State.live,
        hpool]
    cases hQ _ _ hrecord

/-! ## The join comes too late -/

/-- The destructor has not looked at the record of the other thread yet. -/
def Destructor.untilJoin : Destructor → Bool
  | .setQuit | .unregisterClient | .poolRelease | .threadJoin => true
  | _ => false

structure UntilJoin (s : State) : Prop where
  place : s.destructor.untilJoin = true
  sipEndpt : s.sipEndpt = true
  cachingPool : s.cachingPool = true
  sipPool : s.sipPool = s.destructor.beforeRelease

/-- The step is not the join, and no call on a record that is gone. -/
structure NotLate (debug : Bool) (x : Thread) (s : State) : Prop where
  join : x = .destructor → s.destructor ≠ .threadJoin
  call : CallsEarly debug x s

section UntilJoin

variable {debug : Bool} {s : State}

theorem UntilJoin.destructorStep (h : UntilJoin s) (hne : s.destructor ≠ .threadJoin) :
    Keeps Event.onLive UntilJoin (destructorStep s) s := by
  have hpool := h.sipPool
  cases hplace : s.destructor with
  | setQuit =>
      simp only [Shutdown.destructorStep, hplace] at hpool ⊢
      exact keeps_set ⟨rfl, h.sipEndpt, h.cachingPool, hpool⟩
  | unregisterClient =>
      simp only [Shutdown.destructorStep, hplace] at hpool ⊢
      apply keeps_useEndpt h.sipEndpt h.cachingPool
      exact keeps_set ⟨rfl, h.sipEndpt, h.cachingPool, hpool⟩
  | poolRelease =>
      simp only [Shutdown.destructorStep, hplace] at hpool ⊢
      apply keeps_use hpool
      exact keeps_set ⟨rfl, h.sipEndpt, h.cachingPool, rfl⟩
  | threadJoin => exact absurd hplace hne
  | _ =>
      have hearly := h.place
      rw [hplace] at hearly
      cases hearly

/-- The worker threads have their endpoint, and their records if they look at them. -/
theorem UntilJoin.keepAliveStep (h : UntilJoin s) (hx : CallsEarly debug .keepAlive s) :
    Keeps Event.onLive UntilJoin (keepAliveStep debug s) s := by
  have hset : ∀ k, UntilJoin { s with keepAlive := k } := fun k =>
    ⟨h.place, h.sipEndpt, h.cachingPool, h.sipPool⟩
  cases hplace : s.keepAlive with
  | quitTest => simp only [Shutdown.keepAliveStep, hplace]; exact keeps_set (hset _)
  | sleep => simp only [Shutdown.keepAliveStep, hplace]; exact keeps_set (hset _)
  | sendKeepAlive =>
      have hrecord : debug = true → s.sipPool = true := fun hdebug =>
        h.sipPool.trans (hx hdebug (.inl ⟨rfl, hplace⟩))
      simp only [Shutdown.keepAliveStep, hplace]
      exact keeps_useLocked h.sipEndpt h.cachingPool hrecord (keeps_set (hset _))
  | ended => simp only [Shutdown.keepAliveStep, hplace]; exact keeps_pure h

theorem UntilJoin.eventLoopStep (h : UntilJoin s) (hx : CallsEarly debug .eventLoop s) :
    Keeps Event.onLive UntilJoin (eventLoopStep debug s) s := by
  have hset : ∀ k, UntilJoin { s with eventLoop := k } := fun k =>
    ⟨h.place, h.sipEndpt, h.cachingPool, h.sipPool⟩
  cases hplace : s.eventLoop with
  | quitTest => simp only [Shutdown.eventLoopStep, hplace]; exact keeps_set (hset _)
  | handleEvents =>
      have hrecord : debug = true → s.sipPool = true := fun hdebug =>
        h.sipPool.trans (hx hdebug (.inr ⟨rfl, hplace⟩))
      simp only [Shutdown.eventLoopStep, hplace]
      exact keeps_useLocked h.sipEndpt h.cachingPool hrecord (keeps_set (hset _))
  | ended => simp only [Shutdown.eventLoopStep, hplace]; exact keeps_pure h

theorem untilJoin_kept {x : Thread} (h : UntilJoin s) (hx : NotLate debug x s) :
    Keeps Event.onLive UntilJoin (perform debug x) s := by
  cases x with
  | destructor => exact keeps_get_bind (h.destructorStep (hx.join rfl))
  | keepAlive => exact keeps_get_bind (h.keepAliveStep hx.call)
  | eventLoop => exact keeps_get_bind (h.eventLoopStep hx.call)

/-- The join reads its record from the pool that has just been released. -/
theorem late_bad {x : Thread} (h : UntilJoin s) (hx : ¬ NotLate debug x s) :
    ¬ GoodStep (perform debug) Event.onLive Orderly x s := by
  by_cases hcall : CallsEarly debug x s
  · have hjoin : ¬ (x = .destructor → s.destructor ≠ .threadJoin) := fun hjoin =>
      hx ⟨hjoin, hcall⟩
    simp only [Classical.not_imp, ne_eq, not_not] at hjoin
    rcases hjoin with ⟨rfl, hplace⟩
    have hpool : s.sipPool = false := by rw [h.sipPool, hplace]; rfl
    rintro ⟨hlive, -⟩
    have hrecord : Event.onLive (.use .destructor .keepAliveRecord false) := by
      apply hlive
      simp [perform, destructorStep, hplace, use, Traced.bind_run, State.live, hpool]
    cases hrecord
  · exact lateCall_bad (fun _ _ hlive => by cases hlive) h.sipPool hcall

end UntilJoin

theorem untilJoin_running : UntilJoin running := ⟨rfl, rfl, rfl, rfl⟩

section Runs

variable {debug : Bool}

/-- The shutdown is orderly as long as the destructor has not come to the join and no thread looks
at a record that is gone. -/
theorem shutdown_safe_iff (r : Run (perform debug) possible running) :
    r.Safe Event.onLive Orderly ↔ ∀ v ∈ r.steps, NotLate debug v.1 v.2 := by
  apply r.safe_iff_condition (I := UntilJoin)
  · intro s h hgone
    rw [h.sipEndpt] at hgone
    cases hgone
  · exact untilJoin_running
  · exact fun x s h _ hx => untilJoin_kept h hx
  · exact fun x s h _ hx => late_bad h hx

/-- A safe run does not get past the join. -/
theorem untilJoin_of_safe {r : Run (perform debug) possible running}
    (h : r.Safe Event.onLive Orderly) {s : State} (hs : r.Reached s) : UntilJoin s := by
  have huntil : r.Safe Event.onLive UntilJoin := by
    apply r.safe_of_condition (I := UntilJoin) (C := NotLate debug)
    · exact fun s h => h
    · exact untilJoin_running
    · exact fun x s h _ hx => untilJoin_kept h hx
    · exact (shutdown_safe_iff r).mp h
  exact huntil.2 s hs

end Runs

/-! ## The event loop is not joined -/

def Destructor.joined : Destructor → Bool
  | .endptDestroy | .cachingPoolDestroy | .pjShutdown | .returned => true
  | _ => false

def Destructor.endptGone : Destructor → Bool
  | .cachingPoolDestroy | .pjShutdown | .returned => true
  | _ => false

/-- The endpoint and the factory are there as long as a worker thread runs, the pool until it is
released. -/
structure Outlives (s : State) : Prop where
  pool : s.sipPool = s.destructor.beforeRelease
  joined : s.destructor.joined = true → s.keepAlive = .ended
  ended : s.sipEndpt = false ∨ s.cachingPool = false ∨ s.destructor.endptGone = true →
    s.keepAlive = .ended ∧ s.eventLoop = .ended

/-- The event loop has ended by itself when the endpoint is destroyed. -/
def EndsFirst (x : Thread) (s : State) : Prop :=
  x = .destructor → s.destructor = .endptDestroy → s.eventLoop = .ended

section Outlives

variable {debug : Bool} {s s' : State}

/-- The destructor moves on and releases nothing that a worker uses. -/
theorem Outlives.moves (h : Outlives s) (hendpt : s'.sipEndpt = s.sipEndpt)
    (hrecords : s'.sipPool = s'.destructor.beforeRelease)
    (hpool : s'.cachingPool = s.cachingPool) (hkeep : s'.keepAlive = s.keepAlive)
    (hloop : s'.eventLoop = s.eventLoop)
    (hjoined : s'.destructor.joined = true → s.keepAlive = .ended)
    (hgone : s'.destructor.endptGone = true → s.keepAlive = .ended ∧ s.eventLoop = .ended) :
    Outlives s' where
  pool := hrecords
  joined := by rw [hkeep]; exact hjoined
  ended := by
    rw [hendpt, hpool, hkeep, hloop]
    rintro (hover | hover | hover)
    · exact h.ended (.inl hover)
    · exact h.ended (.inr (.inl hover))
    · exact hgone hover

/-- Nothing is gone while a worker runs. -/
theorem Outlives.present (h : Outlives s)
    (hruns : ¬ (s.keepAlive = .ended ∧ s.eventLoop = .ended)) :
    s.sipEndpt = true ∧ s.cachingPool = true ∧ s.destructor.endptGone = false := by
  have hover : ¬ (s.sipEndpt = false ∨ s.cachingPool = false ∨ s.destructor.endptGone = true) :=
    fun hgone => hruns (h.ended hgone)
  simpa only [not_or, Bool.not_eq_false, Bool.not_eq_true] using hover

theorem workerOnLive_destructor (resource : Resource) (live : Bool) :
    Event.workerOnLive (.use .destructor resource live) :=
  fun hne => absurd rfl hne

theorem Outlives.destructorStep (h : Outlives s) (hx : possible s .destructor = true)
    (hfirst : s.destructor = .endptDestroy → s.eventLoop = .ended) :
    Keeps Event.workerOnLive Outlives (destructorStep s) s := by
  have hown := workerOnLive_destructor
  have hpool := h.pool
  cases hplace : s.destructor with
  | setQuit =>
      simp only [Shutdown.destructorStep, hplace] at hpool ⊢
      exact keeps_set (h.moves rfl hpool rfl rfl rfl nofun nofun)
  | unregisterClient =>
      simp only [Shutdown.destructorStep, hplace] at hpool ⊢
      apply keeps_useEndpt (hown _ _) (hown _ _)
      exact keeps_set (h.moves rfl hpool rfl rfl rfl nofun nofun)
  | poolRelease =>
      simp only [Shutdown.destructorStep, hplace] at hpool ⊢
      apply keeps_use (hown _ _)
      exact keeps_set (h.moves rfl rfl rfl rfl rfl nofun nofun)
  | threadJoin =>
      simp only [Shutdown.destructorStep, hplace] at hpool ⊢
      apply keeps_use (hown _ _)
      exact keeps_set (h.moves rfl hpool rfl rfl rfl nofun nofun)
  | joining =>
      have hended : s.keepAlive = .ended := by simpa [possible, hplace] using hx
      simp only [Shutdown.destructorStep, hplace] at hpool ⊢
      exact keeps_set (h.moves rfl hpool rfl rfl rfl (fun _ => hended) nofun)
  | endptDestroy =>
      have hended : s.keepAlive = .ended ∧ s.eventLoop = .ended :=
        ⟨h.joined (by rw [hplace]; rfl), hfirst hplace⟩
      simp only [Shutdown.destructorStep, hplace] at hpool ⊢
      apply keeps_useEndpt (hown _ _) (hown _ _)
      exact keeps_set ⟨hpool, fun _ => hended.1, fun _ => hended⟩
  | cachingPoolDestroy =>
      have hended := h.ended (.inr (.inr (by rw [hplace]; rfl)))
      simp only [Shutdown.destructorStep, hplace] at hpool ⊢
      apply keeps_use (hown _ _)
      exact keeps_set ⟨hpool, fun _ => hended.1, fun _ => hended⟩
  | pjShutdown =>
      have hended := h.ended (.inr (.inr (by rw [hplace]; rfl)))
      simp only [Shutdown.destructorStep, hplace] at hpool ⊢
      exact keeps_set ⟨hpool, fun _ => hended.1, fun _ => hended⟩
  | returned => simp [possible, hplace] at hx

theorem Outlives.keepAliveStep (h : Outlives s) (hx : possible s .keepAlive = true)
    (hcall : CallsEarly debug .keepAlive s) :
    Keeps Event.workerOnLive Outlives (keepAliveStep debug s) s := by
  have hruns : s.keepAlive ≠ .ended := by simpa [possible] using hx
  obtain ⟨hendpt, hpool, hgone⟩ := h.present fun hended => hruns hended.1
  have hset : ∀ k, Outlives { s with keepAlive := k } := fun k =>
    ⟨h.pool, fun hjoined => absurd (h.joined hjoined) hruns, by simp [hendpt, hpool, hgone]⟩
  cases hplace : s.keepAlive with
  | quitTest => simp only [Shutdown.keepAliveStep, hplace]; exact keeps_set (hset _)
  | sleep => simp only [Shutdown.keepAliveStep, hplace]; exact keeps_set (hset _)
  | sendKeepAlive =>
      have hrecord : debug = true → s.sipPool = true := fun hdebug =>
        h.pool.trans (hcall hdebug (.inl ⟨rfl, hplace⟩))
      simp only [Shutdown.keepAliveStep, hplace]
      exact keeps_useLocked (fun _ => hendpt) (fun _ => hpool) (fun hdebug _ => hrecord hdebug)
        (keeps_set (hset _))
  | ended => exact absurd hplace hruns

theorem Outlives.eventLoopStep (h : Outlives s) (hx : possible s .eventLoop = true)
    (hcall : CallsEarly debug .eventLoop s) :
    Keeps Event.workerOnLive Outlives (eventLoopStep debug s) s := by
  have hruns : s.eventLoop ≠ .ended := by simpa [possible] using hx
  obtain ⟨hendpt, hpool, hgone⟩ := h.present fun hended => hruns hended.2
  have hset : ∀ k, Outlives { s with eventLoop := k } := fun k =>
    ⟨h.pool, h.joined, by simp [hendpt, hpool, hgone]⟩
  cases hplace : s.eventLoop with
  | quitTest => simp only [Shutdown.eventLoopStep, hplace]; exact keeps_set (hset _)
  | handleEvents =>
      have hrecord : debug = true → s.sipPool = true := fun hdebug =>
        h.pool.trans (hcall hdebug (.inr ⟨rfl, hplace⟩))
      simp only [Shutdown.eventLoopStep, hplace]
      exact keeps_useLocked (fun _ => hendpt) (fun _ => hpool) (fun hdebug _ => hrecord hdebug)
        (keeps_set (hset _))
  | ended => exact absurd hplace hruns

/-- The event loop has ended when the endpoint is destroyed, and no worker thread looks at a record
that is gone. -/
structure InTime (debug : Bool) (x : Thread) (s : State) : Prop where
  first : EndsFirst x s
  call : CallsEarly debug x s

theorem outlives_kept {x : Thread} (h : Outlives s) (hx : possible s x = true)
    (htime : InTime debug x s) : Keeps Event.workerOnLive Outlives (perform debug x) s := by
  cases x with
  | destructor => exact keeps_get_bind (h.destructorStep hx (htime.first rfl))
  | keepAlive => exact keeps_get_bind (h.keepAliveStep hx htime.call)
  | eventLoop => exact keeps_get_bind (h.eventLoopStep hx htime.call)

theorem outlives_bad {x : Thread} (h : Outlives s) (hx : ¬ InTime debug x s) :
    ¬ GoodStep (perform debug) Event.workerOnLive Orderly x s := by
  by_cases hcall : CallsEarly debug x s
  · have hfirst : ¬ EndsFirst x s := fun hfirst => hx ⟨hfirst, hcall⟩
    simp only [EndsFirst, Classical.not_imp] at hfirst
    rcases hfirst with ⟨rfl, hplace, hruns⟩
    rintro ⟨-, hnext⟩
    have horderly := hnext { s with sipEndpt := false, destructor := .cachingPoolDestroy } (by
      simp [perform, destructorStep, hplace, useEndpt, use, Traced.bind_run])
    exact hruns (horderly rfl).2
  · refine lateCall_bad (fun user _ hlive => ?_) h.pool hcall
    by_contra hne
    cases hlive hne

end Outlives

/-- A shutdown is orderly up to the join and never when it is carried through. For the worker
threads alone it is when the event loop happens to have ended by the time the endpoint is
destroyed. With `PJ_DEBUG` neither thread may come to a call once the records are gone. -/
theorem shutdown_never_orderly (debug : Bool) (r : Run (perform debug) possible running) :
    (r.Safe Event.onLive Orderly ↔ ∀ v ∈ r.steps, NotLate debug v.1 v.2) ∧
      (∀ s, r.Reached s → s.destructor = .returned → ¬ r.Safe Event.onLive Orderly) ∧
        (r.Safe Event.workerOnLive Orderly ↔ ∀ v ∈ r.steps, InTime debug v.1 v.2) := by
  refine ⟨shutdown_safe_iff r, ?_, ?_⟩
  · intro s hs hreturned hsafe
    have hplace := (untilJoin_of_safe hsafe hs).place
    rw [hreturned] at hplace
    cases hplace
  · apply r.safe_iff_condition (I := Outlives)
    · exact fun s h hgone => h.ended (.inl hgone)
    · exact ⟨rfl, nofun, by simp [running, Destructor.endptGone]⟩
    · exact fun x s h hx htime => outlives_kept h hx htime
    · exact fun x s h _ hx => outlives_bad h hx

/-- Both threads have ended before anything is released. -/
def quietShutdown : Run (perform true) possible running where
  inputs := [.destructor, .destructor, .keepAlive, .eventLoop, .destructor, .destructor,
    .destructor, .destructor, .destructor, .destructor]
  each_possible := by decide +kernel

theorem quiet_shutdown_reads_released : ¬ quietShutdown.Safe Event.onLive Orderly := by
  intro h
  have hrecord : Event.onLive (.use .destructor .keepAliveRecord false) :=
    h.1 _ (by decide +kernel)
  cases hrecord

end SimpleSipClient.Shutdown
