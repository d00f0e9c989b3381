import Iocom.Lib.LockDepth
import Iocom.Lighthouse

/-!
# The queue of communication events

The root object queues events for the application, which looks at the oldest one and
pops it.  The queue counts its events, so that it does not grow without bound.
-/

namespace Iocom

open LockProgram

/-- `IOC_NEW_MBLK_EVENTS` and the other flags of `ioc_initialize_event_queue`. -/
def newMblkEvents : UInt32 := 1
def mblkConnectEvents : UInt32 := 2
def allMblkEvents : UInt32 := 4
def deviceEvents : UInt32 := 8
def networkEvents : UInt32 := 16

/-- `iocEvent`. -/
inductive Event where
  | newMemoryBlock
  | mblkConnectedAsSource
  | mblkConnectedAsTarget
  | memoryBlockDeleted
  | newNetwork
  | networkDisconnected
  | newDevice
  | deviceDisconnected
  deriving DecidableEq

/-- The flags which ask for an event, as `ioc_queue_event` tests them. -/
def Event.wantedBy : Event → UInt32
  | .newMemoryBlock => newMblkEvents ||| allMblkEvents
  | .mblkConnectedAsSource | .mblkConnectedAsTarget => mblkConnectEvents ||| allMblkEvents
  | .memoryBlockDeleted => allMblkEvents
  | .newNetwork | .networkDisconnected => networkEvents
  | .newDevice | .deviceDisconnected => deviceEvents

/-- `IOC_NETWORK_NAME_SZ` and `IOC_NAME_SZ`. -/
structure EventNameSizes where
  networkNameSz : ℕ
  nameSz : ℕ

/-- `iocQueuedEvent`, and the arguments it is made from; a name which is a null pointer
is the empty string. -/
structure QueuedEvent where
  event : Event
  networkName : List Char
  deviceName : List Char
  deviceNr : UInt32
  mblkName : List Char
  deriving DecidableEq

/-- `iocEventQueue`. -/
structure EventQueue where
  events : List QueuedEvent
  flags : UInt32
  eventCount : ℤ
  maxNroEvents : ℤ
  deriving DecidableEq

inductive EventStatus where
  | success
  | failed
  | memoryAllocationFailed
  deriving DecidableEq

namespace EventQueue

/-- The queue which `ioc_initialize_event_queue` sets up. -/
def start (maxNroEvents : ℤ) (flags : UInt32) : EventQueue where
  events := []
  flags := flags
  eventCount := 0
  maxNroEvents := if maxNroEvents ≠ 0 then maxNroEvents else 1000

def filters (queue : EventQueue) (event : Event) : Bool := queue.flags &&& event.wantedBy = 0

def full (queue : EventQueue) : Bool := queue.maxNroEvents ≤ queue.eventCount

/-- The structure which `ioc_queue_event` allocates and fills. -/
def copyNames (sizes : EventNameSizes) (args : QueuedEvent) : QueuedEvent :=
  { args with
    networkName := osStrncpy args.networkName sizes.networkNameSz
    deviceName := osStrncpy args.deviceName sizes.nameSz
    mblkName := osStrncpy args.mblkName sizes.nameSz }

/-- `ioc_queue_event`, where `allocated` says whether `os_malloc` gives memory. -/
def queueEvent (sizes : EventNameSizes) (args : QueuedEvent) (allocated : Bool) :
    LockProgram EventQueue EventStatus := do
  let queue ← read
  if queue.filters args.event then return .success
  else if queue.full then return .failed
  else
    change fun queue => { queue with eventCount := queue.eventCount + 1 }
    if !allocated then
      unlock
      return .memoryAllocationFailed
    else
      change fun queue => { queue with events := queue.events ++ [copyNames sizes args] }
      return .success

/-- `ioc_get_event`; the root may have no queue. -/
def getEvent : LockProgram (Option EventQueue) (Option QueuedEvent) := do
  lock
  match ← read with
  | none =>
      unlock
      return none
  | some queue =>
      unlock
      return queue.events.head?

/-- `ioc_pop_event` gives whether the queue became empty; `none` is the null pointer
which it follows where there is no event. -/
def popEvent : LockProgram EventQueue (Option Bool) := do
  lock
  match (← read).events with
  | [] => return none
  | _ :: rest =>
      change fun queue => { queue with events := rest, eventCount := queue.eventCount - 1 }
      unlock
      return some rest.isEmpty

/-- `ioc_release_event_queue` pops an event for each one of the list. -/
def popAll : List QueuedEvent → LockProgram EventQueue Unit
  | [] => return ()
  | _ :: rest => do
      let _ ← popEvent
      popAll rest

def releaseEventQueue : LockProgram (Option EventQueue) Unit := do
  lock
  match ← read with
  | none => unlock
  | some queue =>
      part (popAll queue.events) queue fun _ _ => none
      unlock

/-- `ioc_initialize_event_queue`. -/
def initializeEventQueue (maxNroEvents : ℤ) (flags : UInt32) (allocated : Bool) :
    LockProgram (Option EventQueue) EventStatus := do
  lock
  releaseEventQueue
  if !allocated then
    unlock
    return .memoryAllocationFailed
  else
    change fun _ => some (start maxNroEvents flags)
    unlock
    return .success

/-! ## What a call does -/

variable {sizes : EventNameSizes} {queue : EventQueue}

theorem queueEvent_filtered {args : QueuedEvent} (allocated : Bool)
    (h : queue.filters args.event = true) :
    (queueEvent sizes args allocated).run queue = ⟨.success, queue, 0⟩ := by
  simp [queueEvent, h]

theorem queueEvent_full {args : QueuedEvent} (allocated : Bool)
    (hfilters : queue.filters args.event = false) (h : queue.full = true) :
    (queueEvent sizes args allocated).run queue = ⟨.failed, queue, 0⟩ := by
  simp [queueEvent, hfilters, h]

theorem queueEvent_not_allocated {args : QueuedEvent}
    (hfilters : queue.filters args.event = false) (h : queue.full = false) :
    (queueEvent sizes args false).run queue =
      ⟨.memoryAllocationFailed, { queue with eventCount := queue.eventCount + 1 }, -1⟩ := by
  simp [queueEvent, hfilters, h]

theorem queueEvent_allocated {args : QueuedEvent}
    (hfilters : queue.filters args.event = false) (h : queue.full = false) :
    (queueEvent sizes args true).run queue =
      ⟨.success,
        { queue with
          events := queue.events ++ [copyNames sizes args]
          eventCount := queue.eventCount + 1 }, 0⟩ := by
  simp [queueEvent, hfilters, h]

theorem popEvent_cons {e : QueuedEvent} {rest : List QueuedEvent} (h : queue.events = e :: rest) :
    popEvent.run queue =
      ⟨some rest.isEmpty,
        { queue with events := rest, eventCount := queue.eventCount - 1 }, 0⟩ := by
  simp [popEvent, h]

theorem getEvent_value (queue : EventQueue) :
    (getEvent.run (some queue)).value = queue.events.head? := by
  simp [getEvent]

theorem getEvent_balanced : getEvent.Balanced := by
  intro root
  cases root <;> simp [getEvent]

theorem popAll_net (queue : EventQueue) : ((popAll queue.events).run queue).net = 0 := by
  generalize hevents : queue.events = events
  induction events generalizing queue with
  | nil => rfl
  | cons e rest ih =>
      have hrest := ih { queue with events := rest, eventCount := queue.eventCount - 1 } rfl
      simp [popAll, popEvent_cons hevents, hrest]

theorem releaseEventQueue_balanced : releaseEventQueue.Balanced := by
  intro root
  cases root with
  | none => simp [releaseEventQueue]
  | some queue => simp [releaseEventQueue, popAll_net]

theorem initializeEventQueue_balanced (maxNroEvents : ℤ) (flags : UInt32) (allocated : Bool) :
    (initializeEventQueue maxNroEvents flags allocated).Balanced := by
  intro root
  have hrelease := releaseEventQueue_balanced root
  cases allocated <;> simp [initializeEventQueue, hrelease]

/-- Whether `ioc_queue_event` finds no memory where it needs it. -/
def Starved (queue : EventQueue) (event : Event) (allocated : Bool) : Prop :=
  queue.filters event = false ∧ queue.full = false ∧ allocated = false

theorem queueEvent_net (args : QueuedEvent) (allocated : Bool) :
    ((queueEvent sizes args allocated).run queue).net = 0 ↔
      ¬ queue.Starved args.event allocated := by
  cases hfilters : queue.filters args.event with
  | true => simp [queueEvent_filtered allocated hfilters, Starved, hfilters]
  | false =>
      cases hfull : queue.full with
      | true => simp [queueEvent_full allocated hfilters hfull, Starved, hfull]
      | false =>
          cases allocated with
          | true => simp [queueEvent_allocated hfilters hfull, Starved]
          | false => simp [queueEvent_not_allocated hfilters hfull, Starved, hfilters, hfull]

/-! ## Runs -/

/-- A call, with its arguments and whether `os_malloc` gives memory. -/
inductive Call where
  | queueEvent (args : QueuedEvent) (allocated : Bool)
  | getEvent
  | popEvent

/-- A queue with the events which have been queued and those which have been popped, and
by how much the calls have changed the lock. -/
structure Story where
  queue : EventQueue
  queued : List QueuedEvent
  popped : List QueuedEvent
  net : ℤ
  deriving DecidableEq

def Story.start (maxNroEvents : ℤ) (flags : UInt32) : Story :=
  ⟨EventQueue.start maxNroEvents flags, [], [], 0⟩

/-- A call; `ioc_pop_event` is not called when there is no event. -/
def Story.call (sizes : EventNameSizes) (story : Story) : Call → Option Story
  | .queueEvent args allocated =>
      let outcome := (EventQueue.queueEvent sizes args allocated).run story.queue
      let stored := !story.queue.filters args.event && outcome.value = .success
      some
        { story with
          queue := outcome.state
          queued := if stored then story.queued ++ [copyNames sizes args] else story.queued
          net := story.net + outcome.net }
  | .getEvent =>
      some { story with net := story.net + (EventQueue.getEvent.run (some story.queue)).net }
  | .popEvent =>
      let outcome := EventQueue.popEvent.run story.queue
      outcome.value.map fun _ =>
        { story with
          queue := outcome.state
          popped := story.popped ++ story.queue.events.head?.toList
          net := story.net + outcome.net }

def Story.calls (sizes : EventNameSizes) : Story → List Call → Option Story
  | story, [] => some story
  | story, call :: calls => (story.call sizes call).bind fun next => next.calls sizes calls

def Call.Supplied (queue : EventQueue) : Call → Prop
  | .queueEvent args allocated => ¬ queue.Starved args.event allocated
  | .getEvent => True
  | .popEvent => True

def Story.Supplied (sizes : EventNameSizes) : Story → List Call → Prop
  | _, [] => True
  | story, call :: calls =>
      call.Supplied story.queue ∧
        ∀ next, story.call sizes call = some next → next.Supplied sizes calls

/-- How far the count is ahead of the list. -/
def lost (queue : EventQueue) : ℤ := queue.eventCount - queue.events.length

namespace Story

variable {story next : Story} {call : Call}

/-- What a call does: it leaves the queue, counts an event which it does not store, stores
one, or takes the oldest one. -/
theorem call_cases (h : story.call sizes call = some next) :
    (call.Supplied story.queue ∧ next = story) ∨
    (¬ call.Supplied story.queue ∧ story.queue.full = false ∧
      next =
        { story with
          queue := { story.queue with eventCount := story.queue.eventCount + 1 }
          net := story.net - 1 }) ∨
    (∃ e, call.Supplied story.queue ∧ story.queue.full = false ∧
      next =
        { story with
          queue :=
            { story.queue with
              events := story.queue.events ++ [e]
              eventCount := story.queue.eventCount + 1 }
          queued := story.queued ++ [e] }) ∨
    ∃ e rest, call.Supplied story.queue ∧ story.queue.events = e :: rest ∧
      next =
        { story with
          queue :=
            { story.queue with events := rest, eventCount := story.queue.eventCount - 1 }
          popped := story.popped ++ [e] } := by
  cases call with
  | getEvent =>
      have hnet := getEvent_balanced (some story.queue)
      simp only [Story.call, hnet, Int.add_zero, Option.some.injEq] at h
      exact .inl ⟨trivial, h.symm⟩
  | popEvent =>
      right; right; right
      cases hevents : story.queue.events with
      | nil => simp [Story.call, EventQueue.popEvent, hevents] at h
      | cons e rest =>
          simp [Story.call, popEvent_cons hevents, hevents] at h
          exact ⟨e, rest, trivial, rfl, h.symm⟩
  | queueEvent args allocated =>
      cases hfilters : story.queue.filters args.event with
      | true =>
          simp [Story.call, queueEvent_filtered allocated hfilters, hfilters] at h
          exact .inl ⟨by simp [Call.Supplied, Starved, hfilters], h.symm⟩
      | false =>
          cases hfull : story.queue.full with
          | true =>
              simp [Story.call, queueEvent_full allocated hfilters hfull] at h
              exact .inl ⟨by simp [Call.Supplied, Starved, hfull], h.symm⟩
          | false =>
              right
              cases allocated with
              | false =>
                  simp [Story.call, queueEvent_not_allocated hfilters hfull] at h
                  exact .inl ⟨by simp [Call.Supplied, Starved, hfilters, hfull], rfl, h.symm⟩
              | true =>
                  simp [Story.call, queueEvent_allocated hfilters hfull, hfilters] at h
                  exact .inr (.inl ⟨_, by simp [Call.Supplied, Starved], rfl, h.symm⟩)

/-- What holds in every run: each event which is counted and not stored has cost a lock. -/
structure Ordered (story : Story) : Prop where
  fifo : story.queued = story.popped ++ story.queue.events
  lost_nonneg : 0 ≤ story.queue.lost
  net : story.net = -story.queue.lost
  count_le : story.queue.eventCount ≤ max story.queue.maxNroEvents 0

theorem start_ordered (maxNroEvents : ℤ) (flags : UInt32) :
    (Story.start maxNroEvents flags).Ordered where
  fifo := rfl
  lost_nonneg := Int.le_refl 0
  net := rfl
  count_le := Int.le_max_right _ _

theorem call_ordered (hstory : story.Ordered) (h : story.call sizes call = some next) :
    next.Ordered ∧ next.queue.maxNroEvents = story.queue.maxNroEvents ∧
      story.queue.lost ≤ next.queue.lost ∧
      (next.queue.lost = story.queue.lost ↔ call.Supplied story.queue) := by
  obtain ⟨hfifo, hlost, hnet, hcount⟩ := hstory
  unfold lost at hlost hnet
  rcases call_cases h with ⟨hcall, rfl⟩ | ⟨hcall, hfull, rfl⟩ | ⟨e, hcall, hfull, rfl⟩ |
    ⟨e, rest, hcall, hevents, rfl⟩
  · exact ⟨⟨hfifo, hlost, hnet, hcount⟩, rfl, Int.le_refl _, by simp [hcall]⟩
  · simp only [full, decide_eq_false_iff_not] at hfull
    refine ⟨⟨hfifo, ?_, ?_, ?_⟩, rfl, ?_, ?_⟩ <;> simp only [lost, hcall, iff_false] <;> omega
  · simp only [full, decide_eq_false_iff_not] at hfull
    refine ⟨⟨by simp [hfifo], ?_, ?_, ?_⟩, rfl, ?_, ?_⟩ <;>
      simp only [lost, hcall, iff_true, List.length_append, List.length_singleton] <;> omega
  · simp only [hevents, List.length_cons] at hlost hnet
    refine ⟨⟨by simp [hfifo, hevents], ?_, ?_, ?_⟩, rfl, ?_, ?_⟩ <;>
      simp only [lost, hcall, iff_true, hevents, List.length_cons] <;> omega

/-- The run: the count is as far ahead of the list as before exactly if every call has
been supplied with memory. -/
theorem calls_ordered {calls : List Call} (hstory : story.Ordered)
    (h : story.calls sizes calls = some next) :
    next.Ordered ∧ next.queue.maxNroEvents = story.queue.maxNroEvents ∧
      story.queue.lost ≤ next.queue.lost ∧
      (next.queue.lost = story.queue.lost ↔ story.Supplied sizes calls) := by
  induction calls generalizing story with
  | nil =>
      cases h
      exact ⟨hstory, rfl, Int.le_refl _, by simp [Story.Supplied]⟩
  | cons call calls ih =>
      obtain ⟨middle, hcall, hcalls⟩ := Option.bind_eq_some_iff.mp h
      obtain ⟨hmiddle, hmax, hle, hlost⟩ := call_ordered hstory hcall
      obtain ⟨hnext, hmax', hle', hlost'⟩ := ih hmiddle hcalls
      refine ⟨hnext, hmax'.trans hmax, hle.trans hle', ?_⟩
      simp only [Story.Supplied, hcall, Option.some.injEq, forall_eq', ← hlost, ← hlost']
      omega

end Story

end EventQueue

end Iocom
