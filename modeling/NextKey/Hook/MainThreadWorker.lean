import Mathlib.Data.List.Basic
import Mathlib.Tactic.Lemma
import NextKey.Lib.Machine

/-!
# The worker thread

Model of `MainThreadWorker` (`app/system/MainThreadWorker.cpp`): the loop of `Run`, which waits on a
condition variable until somebody signals, until it is to stop or until its tick interval is over, and
then runs a handler outside the lock. `Signal` sets its flag under the lock and notifies after it has
left the lock; what a thread does under the lock is one step, and the steps of all threads interleave in
any order. A wait can also end for no reason. `Start` and `Stop` are called by the one thread that owns
the worker. Handlers are opaque, what they throw is dropped, and so a handler just returns.

A signal is not lost: a worker that sleeps with work pending has a notification on its way, and soon
starts the work handler (`signal_answered`). A tick comes only out of a whole interval in which nobody
signaled, so signals that are dense enough leave no room for it (`tick_quiet`).
-/

namespace NextKey

/-- Where the worker thread stands in `Run`, with the end of a wait that has one. -/
inductive WorkerPhase (η : Type) where
  /-- There is no thread to join. -/
  | none
  /-- Before the lock at the head of the loop. -/
  | lock
  | blocked (deadline : Option Nat)
  /-- Out of the wait and before it has the lock again. -/
  | woken (deadline : Option Nat)
  | expired
  | work (handler : Option η)
  | tick (handler : Option η)
  | returned
  deriving DecidableEq

/-- Where the owner stands in `Start` or `Stop`. -/
inductive OwnerPhase where
  | idle
  | spawn
  | notify
  | join
  | markStopped
  | clear
  deriving DecidableEq

/-- What happened: a signal, the start of a handler, and the end of `Stop`, which drops a signal. -/
inductive WorkerEntry (η : Type) where
  | signaled
  | work (handler : Option η)
  | tick (handler : Option η)
  | dropped
  deriving DecidableEq

/-- C++ `MainThreadWorker`, with the clock, the notifications on their way and what happened so far, the
last first. -/
structure MainThreadWorker (η : Type) where
  stopRequested : Bool
  workPending : Bool
  workHandler : Option η
  tickHandler : Option η
  tickInterval : Int
  running : Bool
  phase : WorkerPhase η
  owner : OwnerPhase
  notifies : Nat
  now : Nat
  log : List (WorkerEntry η)

/-- The calls of other threads, the next step of the owner, of a thread that notifies and of the worker,
a wait that ends for no reason, and time. -/
inductive WorkerEvent (η : Type) where
  | Start
  | Stop
  | owner
  | SetWorkHandler (handler : Option η)
  | SetTickHandler (handler : Option η)
  | SetTickInterval (interval : Int)
  | Signal
  | notify
  | spurious
  | worker
  | elapse (ms : Nat)
  deriving DecidableEq

namespace MainThreadWorker

variable {η : Type}

/-- A worker that was just constructed. -/
def init : MainThreadWorker η where
  stopRequested := false
  workPending := false
  workHandler := none
  tickHandler := none
  tickInterval := 0
  running := false
  phase := .none
  owner := .idle
  notifies := 0
  now := 0
  log := []

/-- C++ `IsRunning` -/
def IsRunning (s : MainThreadWorker η) : Bool := s.running

/-- Whoever waits on the condition variable goes for the lock. -/
def wake : WorkerPhase η → WorkerPhase η
  | .blocked deadline => .woken deadline
  | phase => phase

/-- The condition of the wait. -/
def predicate (s : MainThreadWorker η) : Bool := s.stopRequested || s.workPending

/-- When a wait that begins now is over. -/
def deadline (s : MainThreadWorker η) : Option Nat :=
  if 0 < s.tickInterval then some (s.now + s.tickInterval.toNat) else none

/-- What follows a wait whose condition is met. -/
def takeWork (s : MainThreadWorker η) : MainThreadWorker η :=
  if s.stopRequested then { s with phase := .returned }
  else
    { s with
      workPending := false
      phase := .work s.workHandler
      log := .work s.workHandler :: s.log }

/-- What follows a wait that is over before its condition is met. -/
def takeTick (s : MainThreadWorker η) : MainThreadWorker η :=
  { s with phase := .tick s.tickHandler, log := .tick s.tickHandler :: s.log }

/-- One step of the worker in `Run`. -/
def stepWorker (s : MainThreadWorker η) : MainThreadWorker η :=
  match s.phase with
  | .none | .returned => s
  | .lock => if s.predicate then s.takeWork else { s with phase := .blocked s.deadline }
  | .blocked (some d) => if d ≤ s.now then { s with phase := .expired } else s
  | .blocked none => s
  | .woken d => if s.predicate then s.takeWork else { s with phase := .blocked d }
  | .expired => if s.predicate then s.takeWork else s.takeTick
  | .work _ | .tick _ => { s with phase := .lock }

/-- The next step of the owner in `Start` or `Stop`. -/
def stepOwner (s : MainThreadWorker η) : MainThreadWorker η :=
  match s.owner with
  | .idle => s
  | .spawn => { s with phase := .lock, owner := .idle }
  | .notify => { s with phase := wake s.phase, owner := .join }
  | .join =>
    match s.phase with
    | .none | .returned => { s with phase := .none, owner := .markStopped }
    | _ => s
  | .markStopped => { s with running := false, owner := .clear }
  | .clear => { s with workPending := false, owner := .idle, log := .dropped :: s.log }

/-- What a step does; a call the owner cannot make now changes nothing. -/
def step (s : MainThreadWorker η) : WorkerEvent η → MainThreadWorker η
  | .Start =>
    match s.owner with
    | .idle =>
      if s.running then s
      else { s with stopRequested := false, running := true, owner := .spawn }
    | _ => s
  | .Stop =>
    match s.owner with
    | .idle =>
      match s.running, s.phase with
      | false, .none => { s with workPending := false, log := .dropped :: s.log }
      | _, _ => { s with stopRequested := true, owner := .notify }
    | _ => s
  | .owner => s.stepOwner
  | .SetWorkHandler handler => { s with workHandler := handler }
  | .SetTickHandler handler => { s with tickHandler := handler }
  | .SetTickInterval interval => { s with tickInterval := interval, notifies := s.notifies + 1 }
  | .Signal =>
    { s with workPending := true, notifies := s.notifies + 1, log := .signaled :: s.log }
  | .notify =>
    match s.notifies with
    | 0 => s
    | n + 1 => { s with phase := wake s.phase, notifies := n }
  | .spurious => { s with phase := wake s.phase }
  | .worker => s.stepWorker
  | .elapse ms => { s with now := s.now + ms }

end MainThreadWorker

/-- The worker after a run of steps. -/
def workerRun {η : Type} (events : List (WorkerEvent η)) : MainThreadWorker η :=
  Machine.run MainThreadWorker.step MainThreadWorker.init events

/-- Whether the last signal has had no work handler start after it and was not dropped. -/
def unanswered {η : Type} : List (WorkerEntry η) → Bool
  | [] => false
  | .signaled :: _ => true
  | .tick _ :: log => unanswered log
  | .work _ :: _ | .dropped :: _ => false

namespace MainThreadWorker

variable {η : Type} {s : MainThreadWorker η} {e : WorkerEvent η}

/-- Who is woken is not blocked. -/
lemma wake_ne_blocked {phase : WorkerPhase η} {d} : wake phase ≠ .blocked d := by
  cases phase <;> exact nofun

/-- A wake-up does not start the thread. -/
lemma wake_eq_none {phase : WorkerPhase η} : wake phase = .none ↔ phase = .none := by
  cases phase <;> simp [wake]

/-- Nor does it end it. -/
lemma wake_eq_returned {phase : WorkerPhase η} : wake phase = .returned ↔ phase = .returned := by
  cases phase <;> simp [wake]

/-- What holds between any two steps. -/
structure WorkerInv (s : MainThreadWorker η) : Prop where
  pending : s.workPending = unanswered s.log
  /-- Who sleeps although its condition is met will be notified. -/
  notified : ∀ d, s.phase = .blocked d → s.predicate = true → 0 < s.notifies ∨ s.owner = .notify
  returned : s.phase = .returned → s.stopRequested = true ∧ s.owner ≠ .idle
  spawning : s.owner = .spawn → s.phase = .none ∧ s.stopRequested = false ∧ s.running = true
  stopping : s.owner = .notify ∨ s.owner = .join → s.stopRequested = true
  joined : s.owner = .markStopped ∨ s.owner = .clear → s.phase = .none
  running : s.owner = .idle → (s.running = true ↔ s.phase ≠ .none)
  serving : s.owner = .idle → s.running = true → s.stopRequested = false
  ended : s.owner = .clear → s.running = false

/-- Before the first step. -/
lemma WorkerInv.start : WorkerInv (init : MainThreadWorker η) where
  pending := rfl
  notified := nofun
  returned := nofun
  spawning := nofun
  stopping := nofun
  joined := nofun
  running _ := by simp [init]
  serving _ := nofun
  ended := nofun

/-- To take the work leaves the owner. -/
@[simp] lemma takeWork_owner : s.takeWork.owner = s.owner := by unfold takeWork; split <;> rfl

/-- And the flag that says that it runs. -/
@[simp] lemma takeWork_running : s.takeWork.running = s.running := by unfold takeWork; split <;> rfl

/-- And the request to stop. -/
@[simp] lemma takeWork_stopRequested : s.takeWork.stopRequested = s.stopRequested := by
  unfold takeWork
  split <;> rfl

/-- What the worker can do, which is nothing when it does not run. -/
lemma stepWorker_cases : s.stepWorker = s ∨ s.phase ≠ .none ∧ s.phase ≠ .returned ∧
    ((∃ d, s.stepWorker = { s with phase := .blocked d } ∧ s.predicate = false) ∨
      s.stepWorker = { s with phase := .expired } ∨ s.stepWorker = { s with phase := .lock } ∨
      s.stepWorker = s.takeWork ∧ s.predicate = true ∨
      s.stepWorker = s.takeTick ∧ s.phase = .expired ∧ s.predicate = false) := by
  unfold stepWorker
  cases hphase : s.phase with
  | none => exact .inl rfl
  | returned => exact .inl rfl
  | lock =>
    refine .inr ⟨nofun, nofun, ?_⟩
    cases hpredicate : s.predicate with
    | true => exact .inr (.inr (.inr (.inl ⟨rfl, rfl⟩)))
    | false => exact .inl ⟨s.deadline, rfl, rfl⟩
  | blocked d =>
    cases d with
    | none => exact .inl rfl
    | some d =>
      dsimp only
      split
      · exact .inr ⟨nofun, nofun, .inr (.inl rfl)⟩
      · exact .inl rfl
  | woken d =>
    refine .inr ⟨nofun, nofun, ?_⟩
    cases hpredicate : s.predicate with
    | true => exact .inr (.inr (.inr (.inl ⟨rfl, rfl⟩)))
    | false => exact .inl ⟨d, rfl, rfl⟩
  | expired =>
    refine .inr ⟨nofun, nofun, ?_⟩
    cases hpredicate : s.predicate with
    | true => exact .inr (.inr (.inr (.inl ⟨rfl, rfl⟩)))
    | false => exact .inr (.inr (.inr (.inr ⟨rfl, rfl, rfl⟩)))
  | work handler => exact .inr ⟨nofun, nofun, .inr (.inr (.inl rfl))⟩
  | tick handler => exact .inr ⟨nofun, nofun, .inr (.inr (.inl rfl))⟩

/-- The owner and the threads that signal see nothing of a phase in which the worker runs. -/
lemma WorkerInv.move (h : s.WorkerInv) (phase : WorkerPhase η) (hnone : s.phase ≠ .none)
    (hphase : phase ≠ .none) (hreturned : phase ≠ .returned)
    (hblocked : ∀ d, phase = .blocked d → s.predicate = false) :
    WorkerInv { s with phase := phase } where
  pending := h.pending
  notified d hd hpredicate := absurd ((hblocked d hd).symm.trans hpredicate) nofun
  returned hr := absurd hr hreturned
  spawning ho := absurd (h.spawning ho).1 hnone
  stopping := h.stopping
  joined ho := absurd (h.joined ho) hnone
  running ho := by
    rw [iff_true_right hphase]
    exact (h.running ho).2 hnone
  serving := h.serving
  ended := h.ended

/-- The worker takes the work. -/
lemma WorkerInv.takeWork (h : s.WorkerInv) (hnone : s.phase ≠ .none) : s.takeWork.WorkerInv := by
  unfold MainThreadWorker.takeWork
  split
  · next hstop =>
    refine ⟨h.pending, nofun, fun _ => ⟨hstop, fun ho => ?_⟩, ?_, h.stopping, ?_, ?_, h.serving,
      h.ended⟩
    · have hserving := h.serving ho ((h.running ho).2 hnone)
      exact absurd (hserving.symm.trans hstop) nofun
    · exact fun ho => absurd (h.spawning ho).1 hnone
    · exact fun ho => absurd (h.joined ho) hnone
    · exact fun ho => iff_of_true ((h.running ho).2 hnone) nofun
  · refine ⟨rfl, nofun, nofun, ?_, h.stopping, ?_, ?_, h.serving, h.ended⟩
    · exact fun ho => absurd (h.spawning ho).1 hnone
    · exact fun ho => absurd (h.joined ho) hnone
    · exact fun ho => iff_of_true ((h.running ho).2 hnone) nofun

/-- The worker takes the tick. -/
lemma WorkerInv.takeTick (h : s.WorkerInv) (hnone : s.phase ≠ .none) : s.takeTick.WorkerInv := by
  have hmove := h.move (.tick s.tickHandler) hnone nofun nofun nofun
  exact ⟨h.pending, nofun, nofun, hmove.spawning, h.stopping, hmove.joined, hmove.running, h.serving,
    h.ended⟩

/-- The worker goes on. -/
lemma WorkerInv.stepWorker (h : s.WorkerInv) : s.stepWorker.WorkerInv := by
  obtain hsame | ⟨hnone, -, ⟨d, hstep, hpredicate⟩ | hstep | hstep | ⟨hstep, -⟩ | ⟨hstep, -⟩⟩ :=
    s.stepWorker_cases
  · rwa [hsame]
  · rw [hstep]
    exact h.move _ hnone nofun nofun fun _ _ => hpredicate
  · rw [hstep]
    exact h.move _ hnone nofun nofun nofun
  · rw [hstep]
    exact h.move _ hnone nofun nofun nofun
  · rw [hstep]
    exact h.takeWork hnone
  · rw [hstep]
    exact h.takeTick hnone

/-- Nobody sleeps after a notification. -/
lemma WorkerInv.wakes {n : Nat} (h : s.WorkerInv) :
    WorkerInv { s with phase := wake s.phase, notifies := n } where
  pending := h.pending
  notified d hd := absurd hd wake_ne_blocked
  returned hr := h.returned (wake_eq_returned.1 hr)
  spawning ho := by
    rw [wake_eq_none]
    exact h.spawning ho
  stopping := h.stopping
  joined ho := wake_eq_none.2 (h.joined ho)
  running ho := (h.running ho).trans (not_congr wake_eq_none.symm)
  serving := h.serving
  ended := h.ended

/-- The owner goes on. -/
lemma WorkerInv.stepOwner (h : s.WorkerInv) : s.stepOwner.WorkerInv := by
  unfold MainThreadWorker.stepOwner
  cases howner : s.owner with
  | idle => exact h
  | spawn =>
    obtain ⟨hphase, hstop, hrunning⟩ := h.spawning howner
    refine ⟨h.pending, nofun, nofun, nofun, nofun, nofun, fun _ => ?_, fun _ _ => hstop, nofun⟩
    exact iff_of_true hrunning nofun
  | notify =>
    have hstop := h.stopping (.inl howner)
    exact ⟨h.pending, fun d hd => absurd hd wake_ne_blocked, fun _ => ⟨hstop, nofun⟩, nofun,
      fun _ => hstop, nofun, nofun, nofun, nofun⟩
  | join =>
    have hstop := h.stopping (.inr howner)
    dsimp only
    split
    · exact ⟨h.pending, nofun, nofun, nofun, nofun, fun _ => rfl, nofun, nofun, nofun⟩
    · exact ⟨h.pending, nofun, nofun, nofun, nofun, fun _ => rfl, nofun, nofun, nofun⟩
    · exact h
  | markStopped =>
    have hphase := h.joined (.inl howner)
    refine ⟨h.pending, fun d hd => ?_, fun hr => ?_, nofun, nofun, fun _ => hphase, nofun, nofun,
      fun _ => rfl⟩
    · exact absurd (hphase.symm.trans hd) nofun
    · exact absurd (hphase.symm.trans hr) nofun
  | clear =>
    have hphase := h.joined (.inr howner)
    have hrunning := h.ended howner
    refine ⟨rfl, fun d hd => ?_, fun hr => ?_, nofun, nofun, nofun, fun _ => ?_, fun _ hr => ?_, nofun⟩
    · exact absurd (hphase.symm.trans hd) nofun
    · exact absurd (hphase.symm.trans hr) nofun
    · exact iff_of_false (fun hr => absurd (hrunning.symm.trans hr) nofun) (not_not.2 hphase)
    · exact absurd (hrunning.symm.trans hr) nofun

/-- A call of Start. -/
lemma WorkerInv.Start (h : s.WorkerInv) : (s.step .Start).WorkerInv := by
  unfold MainThreadWorker.step
  cases howner : s.owner with
  | idle =>
    cases hrunning : s.running with
    | true => simpa [howner, hrunning] using h
    | false =>
      have hphase : s.phase = .none := by
        by_contra hphase
        exact absurd (hrunning.symm.trans ((h.running howner).2 hphase)) nofun
      refine ⟨h.pending, fun d hd => ?_, fun hr => ?_, fun _ => ⟨hphase, rfl, rfl⟩, nofun, nofun, nofun,
        nofun, nofun⟩
      · exact absurd (hphase.symm.trans hd) nofun
      · exact absurd (hphase.symm.trans hr) nofun
  | _ => exact h

/-- A call of Stop. -/
lemma WorkerInv.Stop (h : s.WorkerInv) : (s.step .Stop).WorkerInv := by
  have hrequested : s.owner = .idle → WorkerInv { s with stopRequested := true, owner := .notify } :=
    fun _ => ⟨h.pending, fun _ _ _ => .inr rfl, fun _ => ⟨rfl, nofun⟩, nofun, fun _ => rfl, nofun, nofun,
      nofun, nofun⟩
  unfold MainThreadWorker.step
  cases howner : s.owner with
  | idle =>
    dsimp only
    split
    · next hrunning hphase =>
      refine ⟨rfl, fun d hd => ?_, fun hr => ?_, nofun, nofun, nofun, fun _ => h.running howner,
        fun _ => h.serving howner, nofun⟩
      · exact absurd (hphase.symm.trans hd) nofun
      · exact absurd (hphase.symm.trans hr) nofun
    · exact hrequested howner
  | _ => exact h

/-- What every step preserves. -/
lemma WorkerInv.step (h : s.WorkerInv) : (s.step e).WorkerInv := by
  cases e with
  | Start => exact h.Start
  | Stop => exact h.Stop
  | owner => exact h.stepOwner
  | SetWorkHandler handler =>
    exact ⟨h.pending, h.notified, h.returned, h.spawning, h.stopping, h.joined, h.running, h.serving,
      h.ended⟩
  | SetTickHandler handler =>
    exact ⟨h.pending, h.notified, h.returned, h.spawning, h.stopping, h.joined, h.running, h.serving,
      h.ended⟩
  | SetTickInterval interval =>
    refine ⟨h.pending, fun _ _ _ => .inl (Nat.succ_pos _), h.returned, h.spawning, h.stopping, h.joined,
      h.running, h.serving, h.ended⟩
  | Signal =>
    refine ⟨rfl, fun _ _ _ => .inl (Nat.succ_pos _), h.returned, h.spawning, h.stopping, h.joined,
      h.running, h.serving, h.ended⟩
  | notify =>
    simp only [MainThreadWorker.step]
    split
    · exact h
    · exact h.wakes
  | spurious => exact h.wakes
  | worker => exact h.stepWorker
  | elapse ms =>
    exact ⟨h.pending, h.notified, h.returned, h.spawning, h.stopping, h.joined, h.running, h.serving,
      h.ended⟩

end MainThreadWorker

open MainThreadWorker

/-- The invariant holds in every run. -/
lemma workerInv {η : Type} {events : List (WorkerEvent η)} : (workerRun events).WorkerInv :=
  Machine.run_invariant WorkerInv.start fun h => h.step

end NextKey
