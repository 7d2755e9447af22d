import Mathlib.Logic.Function.Basic
import NextKey.Hook.WorkerResponse

/-!
# What the worker runs

The worker thread as `main.cpp` wires it: its work handler is `SyncConfigFromSharedState`,
`DrainClassifyOnWorker` and `RetuneCadenceIfNeeded`, its tick handler `OnTickPoll`, which ends with the
same retuning and the saving of the app modes. Focus events latch their window and signal
(`OnFocusChanged`), keys note the time and signal when the cadence is not the active one
(`MarkActivity`), and a focus on a known hijacker changes what the cadence should be. Every access to an
atomic is a step. `OnTickPoll` classifies the window in the foreground itself where it finds it in
another process than the last, and returns before the retuning where there is none. The configuration
that is read, the hijack detector, the flags of the text service and the saving of the app modes touch
nothing of this state and are opaque.
-/

namespace NextKey

def kTickActiveMs : Nat := 200
def kIdleStopThreshMs : Nat := 120000
def kChromiumActiveInterval : Nat := 40

/-- The tick interval in milliseconds, 0 to park the worker. -/
def ComputeTickInterval (idleMs : Nat) : Nat := if idleMs < kIdleStopThreshMs then kTickActiveMs else 0

def kClassifyEmpty : BitVec 64 := 0
def kClassifyForeground : BitVec 64 := 1

/-- How a window is latched, with the null handle for the one in the foreground. -/
def encodeHwnd (hwnd : BitVec 64) : BitVec 64 := if hwnd = 0 then kClassifyForeground else hwnd

/-- How what was latched is read. -/
def decodeHwnd (encoded : BitVec 64) : BitVec 64 := if encoded = kClassifyForeground then 0 else encoded

/-- No window is latched as none. -/
lemma encodeHwnd_ne_empty (hwnd : BitVec 64) : encodeHwnd hwnd ≠ kClassifyEmpty := by
  unfold encodeHwnd
  split
  · decide
  · assumption

/-- A window is read as it was latched; no handle is 1. -/
lemma decodeHwnd_encodeHwnd {hwnd : BitVec 64} (h : hwnd ≠ 1) : decodeHwnd (encodeHwnd hwnd) = hwnd := by
  unfold decodeHwnd encodeHwnd
  split
  · next hnull => simp [hnull, kClassifyForeground]
  · next hne => exact if_neg h

/-- Where the worker thread stands in a handler. -/
inductive HandlerPhase where
  | idle
  | sync
  | drain
  | poll
  | readPid (fgPid : BitVec 32)
  | storePid (fgPid : BitVec 32)
  | classify
  | readClock
  | readActivity (now : Nat)
  | readHijacker (idleMs : Nat)
  | compare (desiredMs : Nat)
  | publish (desiredMs : Nat)
  | setInterval (desiredMs : Nat)
  deriving DecidableEq

/-- The worker is in `OnTickPoll`, before the retuning. -/
@[simp] def HandlerPhase.polls : HandlerPhase → Bool
  | .poll | .readPid _ | .storePid _ | .classify => true
  | .idle | .sync | .drain | .readClock | .readActivity _ | .readHijacker _ | .compare _ | .publish _
  | .setInterval _ => false

/-- A call of `OnFocusChangedSyncOnWorker`: for a window that was latched, or by the poll for the one in
the foreground. -/
inductive Classified where
  | drained (triggerHwnd : BitVec 64)
  | polled
  deriving DecidableEq

/-- Where the hook thread stands in `MarkActivity`, or before the signal at a focus on a hijacker. -/
inductive ActivityPhase where
  | idle
  | store (tick : Nat)
  | load
  | signal
  deriving DecidableEq

/-- The worker with its handlers, the threads `π` that report focus changes and the hook thread. What was
latched and what was classified are kept, the last first. The process in the foreground is 0 where there
is none. -/
structure HookWorker (π : Type) where
  worker : MainThreadWorker Unit
  handler : HandlerPhase
  pendingClassifyHwnd : BitVec 64
  /-- Who has latched a window and not signaled yet. -/
  latching : π → Bool
  activity : ActivityPhase
  lastActivityTickMs : Nat
  currentTickIntervalMs : Nat
  isKnownHijackerApp : Bool
  foregroundPid : BitVec 32
  lastForegroundPid : BitVec 32
  latched : List (BitVec 64)
  classified : List Classified

/-- A step of a thread in the worker, with who else signals, of a handler, of a thread that reports a
focus change and of the hook thread. -/
inductive HandlerEvent (π : Type) where
  | Start
  | Stop
  | owner
  | Signal
  | notify
  | spurious
  | worker
  | elapse (ms : Nat)
  | handler
  /-- Something throws in `OnTickPoll`, which catches it. -/
  | pollThrows
  /-- A window of this process comes to the foreground. -/
  | foreground (pid : BitVec 32)
  /-- The hook thread has applied a focus on a window of this process. -/
  | SetLastForegroundPid (pid : BitVec 32)
  | OnFocusChanged (p : π) (triggerHwnd : BitVec 64)
  | latching (p : π)
  | MarkActivity
  | activity
  | setKnownHijacker (isKnownHijacker : Bool)
  deriving DecidableEq

/-- The handler that starts in a phase of the worker. -/
def WorkerPhase.entry : WorkerPhase Unit → HandlerPhase
  | .work _ => .sync
  | .tick _ => .poll
  | _ => .idle

namespace HookWorker

variable {π : Type}

/-- The worker as it is set up before `Start`, at some time after the system has started. -/
def init (now : Nat) : HookWorker π where
  worker :=
    { (MainThreadWorker.init : MainThreadWorker Unit) with
      workHandler := some ()
      tickHandler := some ()
      tickInterval := kTickActiveMs
      notifies := 1
      now := now }
  handler := .idle
  pendingClassifyHwnd := kClassifyEmpty
  latching _ := false
  activity := .idle
  lastActivityTickMs := now
  currentTickIntervalMs := kTickActiveMs
  isKnownHijackerApp := false
  foregroundPid := 0
  lastForegroundPid := 0
  latched := []
  classified := []

/-- The worker goes on in `Run` when no handler runs. -/
def stepWorker (s : HookWorker π) : HookWorker π :=
  match s.handler with
  | .idle =>
    { s with
      worker := s.worker.step .worker
      handler := (s.worker.step .worker).phase.entry }
  | _ => s

/-- The next step of the handler, in `DrainClassifyOnWorker`, `OnTickPoll` or `RetuneCadenceIfNeeded`. -/
def stepHandler (s : HookWorker π) : HookWorker π :=
  match s.handler with
  | .idle => s
  | .sync => { s with handler := .drain }
  | .drain =>
    if s.pendingClassifyHwnd = kClassifyEmpty then { s with handler := .readClock }
    else
      { s with
        handler := .readClock
        pendingClassifyHwnd := kClassifyEmpty
        classified := .drained (decodeHwnd s.pendingClassifyHwnd) :: s.classified }
  | .poll =>
    { s with handler := if s.foregroundPid = 0 then .idle else .readPid s.foregroundPid }
  | .readPid fgPid =>
    { s with handler := if fgPid ≠ s.lastForegroundPid then .storePid fgPid else .readClock }
  -- before the classification, so that a helper window is not classified at every tick
  | .storePid fgPid => { s with handler := .classify, lastForegroundPid := fgPid }
  | .classify => { s with handler := .readClock, classified := .polled :: s.classified }
  | .readClock => { s with handler := .readActivity s.worker.now }
  -- `idleMs` is 0 when the activity is newer than the time that was read
  | .readActivity now => { s with handler := .readHijacker (now - s.lastActivityTickMs) }
  | .readHijacker idleMs =>
    { s with
      handler := .compare <|
        if s.isKnownHijackerApp ∧ idleMs < kIdleStopThreshMs then kChromiumActiveInterval
        else ComputeTickInterval idleMs }
  | .compare desiredMs =>
    { s with handler := if desiredMs ≠ s.currentTickIntervalMs then .publish desiredMs else .idle }
  | .publish desiredMs => { s with handler := .setInterval desiredMs, currentTickIntervalMs := desiredMs }
  | .setInterval desiredMs =>
    { s with handler := .idle, worker := s.worker.step (.SetTickInterval desiredMs) }

/-- The next step of the hook thread in `MarkActivity`. -/
def stepActivity (s : HookWorker π) : HookWorker π :=
  match s.activity with
  | .idle => s
  | .store tick => { s with activity := .load, lastActivityTickMs := tick }
  | .load => { s with activity := if s.currentTickIntervalMs ≠ kTickActiveMs then .signal else .idle }
  | .signal => { s with activity := .idle, worker := s.worker.step .Signal }

/-- What a step does; a thread that is under way begins nothing else. -/
def step [DecidableEq π] (s : HookWorker π) : HandlerEvent π → HookWorker π
  | .Start => { s with worker := s.worker.step .Start }
  | .Stop => { s with worker := s.worker.step .Stop }
  | .owner => { s with worker := s.worker.step .owner }
  | .Signal => { s with worker := s.worker.step .Signal }
  | .notify => { s with worker := s.worker.step .notify }
  | .spurious => { s with worker := s.worker.step .spurious }
  | .worker => s.stepWorker
  | .elapse ms => { s with worker := s.worker.step (.elapse ms) }
  | .handler => s.stepHandler
  | .pollThrows => if s.handler.polls then { s with handler := .idle } else s
  | .foreground pid => { s with foregroundPid := pid }
  | .SetLastForegroundPid pid => { s with lastForegroundPid := pid }
  | .OnFocusChanged p triggerHwnd =>
    if s.latching p then s
    else
      { s with
        pendingClassifyHwnd := encodeHwnd triggerHwnd
        latching := Function.update s.latching p true
        latched := triggerHwnd :: s.latched }
  | .latching p =>
    if s.latching p then
      { s with latching := Function.update s.latching p false, worker := s.worker.step .Signal }
    else s
  | .MarkActivity =>
    match s.activity with
    | .idle => { s with activity := .store s.worker.now }
    | _ => s
  | .activity => s.stepActivity
  | .setKnownHijacker isKnownHijacker =>
    match s.activity with
    | .idle =>
      { s with
        isKnownHijackerApp := isKnownHijacker
        activity := if isKnownHijacker ≠ s.isKnownHijackerApp then .signal else .idle }
    | _ => s

end HookWorker

/-- The worker and its handlers after a run of steps. -/
def hookWorkerRun {π : Type} [DecidableEq π] (now : Nat) (events : List (HandlerEvent π)) :
    HookWorker π :=
  Machine.run HookWorker.step (HookWorker.init now) events

end NextKey
