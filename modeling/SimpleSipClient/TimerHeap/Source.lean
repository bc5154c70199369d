import SimpleSipClient.Foundation.Loop
import SimpleSipClient.Foundation.Runs

/-! # The timer heap

Scheduled entries stand in a binary heap. An entry's timer number is an index into a second
array, which says where in the heap the entry stands; the numbers that nobody has are chained
through the same array. What runs under the heap's lock is one input, with what its caller does
before it takes the lock. A poll gives the lock back for every callback, so that other threads
and the callback itself come in between.

Entries are known by their number in order of creation. Their callbacks are set, and there is
memory for the arrays. Timer numbers do not reach the limits of `int`, nor times those of `long`.
-/

namespace SimpleSipClient.TimerHeap

open Foundation

/-! ## Time -/

structure TimeVal where
  sec : Int
  msec : Int
  deriving DecidableEq, Repr

namespace TimeVal

def eq (t1 t2 : TimeVal) : Bool := t1.sec = t2.sec && t1.msec = t2.msec

def gt (t1 t2 : TimeVal) : Bool :=
  decide (t1.sec > t2.sec) || (decide (t1.sec = t2.sec) && decide (t1.msec > t2.msec))

def gte (t1 t2 : TimeVal) : Bool := t1.gt t2 || t1.eq t2

def lt (t1 t2 : TimeVal) : Bool := !t1.gte t2

def lte (t1 t2 : TimeVal) : Bool := !t1.gt t2

/-- The loop for large negative milliseconds. -/
def borrow (t : TimeVal) : TimeVal :=
  if t.msec ≤ -1000 then borrow { sec := t.sec - 1, msec := t.msec + 1000 } else t
termination_by (-t.msec).toNat
decreasing_by omega

/-- `pj_time_val_normalize`. -/
def normalize (t : TimeVal) : TimeVal :=
  let t :=
    if 1000 ≤ t.msec then { sec := t.sec + t.msec / 1000, msec := t.msec % 1000 }
    else if t.msec ≤ -1000 then t.borrow
    else t
  if 1 ≤ t.sec ∧ t.msec < 0 then { sec := t.sec - 1, msec := t.msec + 1000 }
  else if t.sec < 0 ∧ 0 < t.msec then { sec := t.sec + 1, msec := t.msec - 1000 }
  else t

def add (t1 t2 : TimeVal) : TimeVal :=
  normalize { sec := t1.sec + t2.sec, msec := t1.msec + t2.msec }

def sub (t1 t2 : TimeVal) : TimeVal :=
  normalize { sec := t1.sec - t2.sec, msec := t1.msec - t2.msec }

end TimeVal

def MAXINT32 : Int := 0x7FFFFFFF

/-! ## The object -/

structure Entry where
  id : Int
  timerId : Int
  timerValue : TimeVal
  grpLock : Option Nat
  deriving DecidableEq, Repr

/-- A poll that has given the lock back: `grpLock` is the one of the entry that has expired. -/
structure Poll where
  now : TimeVal
  count : Nat
  nextDelay : Bool
  grpLock : Option Nat
  deriving DecidableEq, Repr

/-- What was allocated is there, whatever it contains: a place in `heap` that was never written
holds no entry. -/
structure State where
  maxSize : Nat
  curSize : Nat
  maxEntriesPerPoll : Nat
  heap : List (Option Nat)
  timerIds : List Int
  timerIdsFreelist : Int
  entries : List Entry
  poll : Option Poll
  deriving DecidableEq, Repr

inductive Assertion where
  | scheduled
  | slot
  | empty
  deriving DecidableEq, Repr

inductive Event where
  | addRef (grpLock : Nat)
  | decRef (grpLock : Nat)
  | callback (e : Nat)
  | scheduled (e : Nat) (status : Int)
  | cancelled (e : Nat) (count : Nat)
  | polled (count : Nat) (nextDelay : Option TimeVal)
  | counted (size : Nat)
  | earliest (timeval : TimeVal)
  | assertion (a : Assertion)
  deriving DecidableEq, Repr

abbrev Routine := Traced Event State

def DEFAULT_MAX_TIMED_OUT_PER_POLL : Nat := 64

def heapParent (x : Nat) : Nat := if x = 0 then 0 else (x - 1) / 2

def heapLeft (x : Nat) : Nat := x + x + 1

/-- What `timer_ids` contains from `start` on, before any number is given out. -/
def unused (start n : Nat) : List Int := (List.range' start n).map fun i : Nat => -((i : Int) + 1)

/-- `pj_timer_heap_create`. -/
def created (size : Nat) : State where
  maxSize := size + 2
  curSize := 0
  maxEntriesPerPoll := DEFAULT_MAX_TIMED_OUT_PER_POLL
  heap := List.replicate (size + 2) none
  timerIds := unused 0 (size + 2)
  timerIdsFreelist := 1
  entries := []
  poll := none

/-! ## Memory -/

def update (f : State → State) : Routine Unit := do
  let ht ← Traced.get
  Traced.set (f ht)

def heapAt (slot : Nat) : Routine Nat := do
  let ht ← Traced.get
  match ht.heap[slot]? with
  | some (some e) => return e
  | _ => Traced.halt .invalid

def setHeap (slot e : Nat) : Routine Unit := do
  let ht ← Traced.get
  if slot < ht.heap.length then Traced.set { ht with heap := ht.heap.set slot (some e) }
  else Traced.halt .invalid

def timerIdAt (id : Int) : Routine Int := do
  let ht ← Traced.get
  match ht.timerIds[id.toNat]? with
  | some v => if 0 ≤ id then return v else Traced.halt .invalid
  | none => Traced.halt .invalid

def setTimerId (id v : Int) : Routine Unit := do
  let ht ← Traced.get
  if 0 ≤ id ∧ id < ht.timerIds.length then
    Traced.set { ht with timerIds := ht.timerIds.set id.toNat v }
  else Traced.halt .invalid

def entryAt (e : Nat) : Routine Entry := do
  let ht ← Traced.get
  match ht.entries[e]? with
  | some x => return x
  | none => Traced.halt .invalid

def updateEntry (e : Nat) (f : Entry → Entry) : Routine Unit :=
  update fun ht => { ht with entries := ht.entries.modify e f }

def pjAssert (expr : Bool) (a : Assertion) : Routine Unit :=
  if expr then pure ()
  else do
    Traced.emit (.assertion a)
    Traced.halt .invalid

/-! ## The heap and the numbers -/

def copyNode (slot moved : Nat) : Routine Unit := do
  setHeap slot moved
  let x ← entryAt moved
  setTimerId x.timerId slot

def popFreelist : Routine Int := do
  let ht ← Traced.get
  let newId := ht.timerIdsFreelist
  let next ← timerIdAt newId
  update fun ht => { ht with timerIdsFreelist := -next }
  return newId

def pushFreelist (oldId : Int) : Routine Unit := do
  let ht ← Traced.get
  setTimerId oldId (-ht.timerIdsFreelist)
  update fun ht => { ht with timerIdsFreelist := oldId }

def valueAt (slot : Nat) : Routine TimeVal := do
  let e ← heapAt slot
  let x ← entryAt e
  return x.timerValue

def smallerChild (curSize child : Nat) : Routine Nat :=
  if child + 1 < curSize then do
    let right ← valueAt (child + 1)
    let left ← valueAt child
    return if right.lt left then child + 1 else child
  else return child

/-- A round of the loop of `reheap_down`, with its `slot` and `child`. -/
def moveUp (curSize moved : Nat) (c : Nat × Nat) : Routine (Flow (Nat × Nat)) := do
  let child ← smallerChild curSize c.2
  let value ← valueAt child
  let m ← entryAt moved
  if value.lt m.timerValue then do
    let e ← heapAt child
    copyNode c.1 e
    return .again (child, heapLeft child)
  else return .leave (c.1, child)

def reheapDown (moved slot child : Nat) : Routine Unit := do
  let ht ← Traced.get
  let c ← iterate (fun c => c.2 < ht.curSize) (moveUp ht.curSize moved) (ht.curSize + 1)
    (slot, child)
  copyNode c.1 moved

/-- A round of the loop of `reheap_up`, with its `slot` and `parent`. -/
def moveDown (moved : Nat) (c : Nat × Nat) : Routine (Flow (Nat × Nat)) := do
  let m ← entryAt moved
  let value ← valueAt c.2
  if m.timerValue.lt value then do
    let e ← heapAt c.2
    copyNode c.1 e
    return .again (c.2, heapParent c.2)
  else return .leave c

def reheapUp (moved slot parent : Nat) : Routine Unit := do
  let c ← iterate (fun c => 0 < c.1) (moveDown moved) (slot + 1) (slot, parent)
  copyNode c.1 moved

def removeNode (slot : Nat) : Routine Nat := do
  let removed ← heapAt slot
  let x ← entryAt removed
  pushFreelist x.timerId
  update fun ht => { ht with curSize := ht.curSize - 1 }
  updateEntry removed fun x => { x with timerId := -1 }
  let ht ← Traced.get
  if slot < ht.curSize then do
    let moved ← heapAt ht.curSize
    copyNode slot moved
    let parent := heapParent slot
    let m ← entryAt moved
    let value ← valueAt parent
    if m.timerValue.gte value then reheapDown moved slot (heapLeft slot)
    else reheapUp moved slot parent
  else pure ()
  return removed

def growHeap : Routine Unit :=
  update fun ht => { ht with
    heap := ht.heap ++ List.replicate ht.maxSize none
    timerIds := ht.timerIds ++ unused ht.maxSize ht.maxSize
    maxSize := ht.maxSize * 2 }

def insertNode (e : Nat) : Routine Unit := do
  let ht ← Traced.get
  if ht.maxSize ≤ ht.curSize + 2 then growHeap else pure ()
  let ht ← Traced.get
  reheapUp e ht.curSize (heapParent ht.curSize)
  update fun ht => { ht with curSize := ht.curSize + 1 }

def scheduleEntry (e : Nat) (futureTime : TimeVal) : Routine Int := do
  let ht ← Traced.get
  if ht.curSize < ht.maxSize then do
    let newId ← popFreelist
    updateEntry e fun x => { x with timerId := newId, timerValue := futureTime }
    insertNode e
    return 0
  else return -1

/-- `dontAssert` is `F_DONT_ASSERT`; `F_DONT_CALL` is always set. -/
def cancel (e : Nat) (dontAssert : Bool) : Routine Nat := do
  let ht ← Traced.get
  let x ← entryAt e
  if x.timerId < 0 ∨ (ht.maxSize : Int) < x.timerId then do
    updateEntry e fun x => { x with timerId := -1 }
    return 0
  else do
    let slot ← timerIdAt x.timerId
    if slot < 0 then do
      updateEntry e fun x => { x with timerId := -1 }
      return 0
    else do
      let found ← heapAt slot.toNat
      if e ≠ found then do
        pjAssert dontAssert .slot
        updateEntry e fun x => { x with timerId := -1 }
        return 0
      else do
        let _ ← removeNode slot.toNat
        return 1

/-! ## What the users call -/

def pjTimerEntryInit (id : Int) : Routine Unit :=
  update fun ht => { ht with
    entries := ht.entries ++ [{
      id := id
      timerId := -1
      timerValue := { sec := 0, msec := 0 }
      grpLock := none }] }

def pjTimerEntryRunning (x : Entry) : Bool := 1 ≤ x.timerId

def scheduleWGrpLock (e : Nat) (tick delay : TimeVal) (idVal : Option Int) (grpLock : Option Nat) :
    Routine Unit := do
  let x ← entryAt e
  pjAssert (x.timerId < 1) .scheduled
  let expires := tick.add delay
  let status ← scheduleEntry e expires
  if status = 0 then do
    updateEntry e fun x => { x with id := idVal.getD x.id, grpLock := grpLock }
    match grpLock with
    | some l => Traced.emit (.addRef l)
    | none => pure ()
  else pure ()
  Traced.emit (.scheduled e status)

def cancelTimer (e : Nat) (dontAssert : Bool) (idVal : Option Int) : Routine Unit := do
  let count ← cancel e dontAssert
  let x ← entryAt e
  updateEntry e fun x => { x with id := idVal.getD x.id, grpLock := none }
  match x.grpLock with
  | some l => Traced.emit (.decRef l)
  | none => pure ()
  Traced.emit (.cancelled e count)

def pjTimerHeapCancel (e : Nat) : Routine Unit := cancelTimer e false none

def pjTimerHeapCancelIfActive (e : Nat) (idVal : Int) : Routine Unit :=
  cancelTimer e true (some idVal)

/-- What is left in the out-parameter at the end of a poll. -/
def delayLeft (now : TimeVal) : Routine TimeVal := do
  let ht ← Traced.get
  if 0 < ht.curSize then do
    let value ← valueAt 0
    let delay := value.sub now
    return if delay.sec < 0 ∨ delay.msec < 0 then { sec := 0, msec := 0 } else delay
  else return { sec := MAXINT32, msec := MAXINT32 }

def firstDue (now : TimeVal) : Routine Bool := do
  let ht ← Traced.get
  if 0 < ht.curSize then do
    let value ← valueAt 0
    return value.lte now
  else return false

/-- The poll loop as far as the next callback. -/
def pollLoop (now : TimeVal) (count : Nat) (nextDelay : Bool) : Routine Unit := do
  let ht ← Traced.get
  let due ← firstDue now
  if due = true ∧ count < ht.maxEntriesPerPoll then do
    let node ← removeNode 0
    let x ← entryAt node
    updateEntry node fun x => { x with grpLock := none }
    update fun ht => { ht with poll := some {
      now := now
      count := count + 1
      nextDelay := nextDelay
      grpLock := x.grpLock } }
    Traced.emit (.callback node)
  else do
    update fun ht => { ht with poll := none }
    if nextDelay then do
      let delay ← delayLeft now
      Traced.emit (.polled count (some delay))
    else Traced.emit (.polled count none)

def pjTimerHeapPoll (now : TimeVal) (nextDelay : Bool) : Routine Unit := do
  let ht ← Traced.get
  if ht.curSize = 0 ∧ nextDelay = true then
    Traced.emit (.polled 0 (some { sec := MAXINT32, msec := MAXINT32 }))
  else pollLoop now 0 nextDelay

def callbackReturned : Routine Unit := do
  let ht ← Traced.get
  match ht.poll with
  | some p => do
      match p.grpLock with
      | some l => Traced.emit (.decRef l)
      | none => pure ()
      pollLoop p.now p.count p.nextDelay
  | none => Traced.halt .invalid

def pjTimerHeapCount : Routine Unit := do
  let ht ← Traced.get
  Traced.emit (.counted ht.curSize)

def pjTimerHeapEarliestTime : Routine Unit := do
  let ht ← Traced.get
  pjAssert (ht.curSize ≠ 0) .empty
  let value ← valueAt 0
  Traced.emit (.earliest value)

def pjTimerHeapSetMaxTimedOutPerPoll (count : Nat) : Routine Unit :=
  update fun ht => { ht with maxEntriesPerPoll := count }

inductive Input where
  | entryInit (id : Int)
  | schedule (e : Nat) (tick delay : TimeVal) (idVal : Option Int) (grpLock : Option Nat)
  | cancel (e : Nat)
  | cancelIfActive (e : Nat) (idVal : Int)
  | poll (now : TimeVal) (nextDelay : Bool)
  | callbackReturned
  | count
  | earliestTime
  | setMaxTimedOutPerPoll (count : Nat)
  deriving DecidableEq, Repr

def perform : Input → Routine Unit
  | .entryInit id => pjTimerEntryInit id
  | .schedule e tick delay idVal grpLock => scheduleWGrpLock e tick delay idVal grpLock
  | .cancel e => pjTimerHeapCancel e
  | .cancelIfActive e idVal => pjTimerHeapCancelIfActive e idVal
  | .poll now nextDelay => pjTimerHeapPoll now nextDelay
  | .callbackReturned => callbackReturned
  | .count => pjTimerHeapCount
  | .earliestTime => pjTimerHeapEarliestTime
  | .setMaxTimedOutPerPoll count => pjTimerHeapSetMaxTimedOutPerPoll count

/-- What `pj_gettickcount` returns. -/
def TimeVal.isTick (t : TimeVal) : Bool := 0 ≤ t.sec && decide (0 ≤ t.msec) && decide (t.msec < 1000)

/-- The clock returns normalized time values, and one thread polls. -/
def possible (ht : State) : Input → Bool
  | .schedule _ tick _ _ _ => tick.isTick
  | .poll now _ => now.isTick && ht.poll.isNone
  | .callbackReturned => ht.poll.isSome
  | _ => true

end SimpleSipClient.TimerHeap
