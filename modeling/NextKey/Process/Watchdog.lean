import Mathlib.Logic.Function.Basic
import NextKey.Lib.NamedEvent

/-!
# The watchdog

Model of `watchdog/main.cpp`, of `app/system/HeartbeatPublisher.cpp` and of the launching and killing of
the watchdog in `app/system/WatchdogController.cpp`. Instances of the program start, publish a
heartbeat, say that the user quits, and end; the watchdog waits for the heartbeat and starts the program
again when it is dead. Every call of the kernel is a step, and the steps of all processes interleave in
any order. A wait for the heartbeat may time out whenever the heartbeat is not signaled, and a sleep may
end at any time. The log of the watchdog and its scheduled task are left out, and so are the stop event
and the thread of the publisher.

The watchdog opens both events anew each time around, and in between it holds neither. What it makes of
a dead program is told by where it stands and by what it holds (`watchdog_decides`).
-/

namespace NextKey

/-- How far `HeartbeatPublisher::Start` or `Stop` of an instance has come. -/
inductive Publisher where
  | stopped
  /-- The heartbeat is created. -/
  | creating
  | publishing
  /-- The heartbeat is closed. -/
  | stopping
  deriving DecidableEq

/-- Where the watchdog stands in `wWinMain`. -/
inductive Dog where
  /-- There is no watchdog. -/
  | off
  | sleeping
  | openHeartbeat
  | openGraceful (heartbeat : Bool)
  /-- At least one of the events is missing: the other one is closed. -/
  | missing (heartbeat graceful : Bool)
  | waiting
  | gotPulse
  /-- The heartbeat is closed after a pulse. -/
  | dropGraceful
  | timedOut
  | readGraceful
  | closeGraceful (gracefulState : Bool)
  | checkAlive
  /-- In `RespawnVKey`. -/
  | respawn
  | exited
  deriving DecidableEq

namespace Dog

def holdsHeartbeat : Dog → Bool
  | .openGraceful heartbeat | .missing heartbeat _ => heartbeat
  | .waiting | .gotPulse | .timedOut => true
  | _ => false

def holdsGraceful : Dog → Bool
  | .missing _ graceful => graceful
  | .waiting | .gotPulse | .dropGraceful | .timedOut | .readGraceful | .closeGraceful _ => true
  | _ => false

/-- There is a watchdog that has not yet made up its mind. -/
def Watches : Dog → Prop
  | .off | .respawn | .exited => False
  | _ => True

instance : ∀ dog : Dog, Decidable dog.Watches
  | .off | .respawn | .exited => inferInstanceAs (Decidable False)
  | .sleeping | .openHeartbeat | .openGraceful _ | .missing _ _ | .waiting | .gotPulse
  | .dropGraceful | .timedOut | .readGraceful | .closeGraceful _ | .checkAlive =>
    inferInstanceAs (Decidable True)

end Dog

namespace Publisher

def holdsHeartbeat : Publisher → Bool
  | .creating | .publishing => true
  | .stopped | .stopping => false

def holdsGraceful : Publisher → Bool
  | .publishing | .stopping => true
  | .stopped | .creating => false

end Publisher

/-- The owner of a handle. -/
inductive Owner (π : Type) where
  | app (p : π)
  | watchdog
  deriving DecidableEq

/-- The instances of the program, the watchdog and the two events. -/
structure Processes (π : Type) where
  running : Finset π
  publisher : π → Publisher
  /-- `Local\VKeyHeartbeat` -/
  heartbeat : NamedEvent (Owner π)
  /-- `Local\VKeyGracefulShutdown` -/
  graceful : NamedEvent (Owner π)
  dog : Dog

/-- One step of an instance or of the watchdog. -/
inductive ProcessEvent (π : Type) where
  /-- The user or another program starts an instance. -/
  | start (p : π)
  | createHeartbeat (p : π)
  | createGraceful (p : π)
  /-- The graceful event cannot be created. -/
  | createFails (p : π)
  | pulse (p : π)
  | SignalGracefulShutdown (p : π)
  | closeHeartbeat (p : π)
  | closeGraceful (p : π)
  /-- An instance ends, whether it quits or crashes. -/
  | ends (p : π)
  | LaunchWatchdogProcess
  | KillWatchdogProcess
  /-- The watchdog takes its next step; `spawned` is the instance that `RespawnVKey` starts, if any. -/
  | dog (spawned : Option π)

namespace Processes

variable {π : Type}

/-- No process and no event. -/
def init : Processes π where
  running := ∅
  publisher _ := .stopped
  heartbeat := .absent
  graceful := .absent
  dog := .off

variable [DecidableEq π] (s : Processes π)

def spawn (p : π) : Processes π := { s with running := insert p s.running }

/-- Both events without the handles of an owner that ends. -/
def release (owner : Owner π) : Processes π :=
  { s with heartbeat := s.heartbeat.close owner, graceful := s.graceful.close owner }

/-- One step of the watchdog. -/
def stepDog (spawned : Option π) : Processes π :=
  match s.dog with
  | .off => s
  | .sleeping => { s with dog := .openHeartbeat }
  | .openHeartbeat =>
    let opened := s.heartbeat.tryOpen .watchdog
    { s with heartbeat := opened.1, dog := .openGraceful opened.2 }
  | .openGraceful heartbeat =>
    let opened := s.graceful.tryOpen .watchdog
    { s with
      graceful := opened.1
      dog := if heartbeat ∧ opened.2 then .waiting else .missing heartbeat opened.2 }
  | .missing true graceful =>
    { s with heartbeat := s.heartbeat.close .watchdog, dog := .missing false graceful }
  | .missing false true =>
    { s with graceful := s.graceful.close .watchdog, dog := .missing false false }
  | .missing false false => { s with dog := if s.running = ∅ then .respawn else .sleeping }
  | .waiting =>
    if s.heartbeat.signaled then { s with heartbeat := s.heartbeat.reset, dog := .gotPulse }
    else { s with dog := .timedOut }
  | .gotPulse => { s with heartbeat := s.heartbeat.close .watchdog, dog := .dropGraceful }
  | .dropGraceful => { s with graceful := s.graceful.close .watchdog, dog := .openHeartbeat }
  | .timedOut => { s with heartbeat := s.heartbeat.close .watchdog, dog := .readGraceful }
  | .readGraceful => { s with dog := .closeGraceful s.graceful.signaled }
  | .closeGraceful gracefulState =>
    { s with
      graceful := s.graceful.close .watchdog
      dog := if gracefulState then .exited else .checkAlive }
  | .checkAlive => { s with dog := if s.running = ∅ then .respawn else .sleeping }
  | .respawn =>
    match spawned with
    | some p => { s.spawn p with dog := .sleeping }
    | none => { s with dog := .sleeping }
  | .exited => s

/-- One step; what is not where the event expects it leaves the state alone. -/
def step : ProcessEvent π → Processes π
  | .start p => s.spawn p
  | .createHeartbeat p =>
    if p ∈ s.running ∧ s.publisher p = .stopped then
      { s with
        heartbeat := s.heartbeat.create (.app p)
        publisher := Function.update s.publisher p .creating }
    else s
  | .createGraceful p =>
    if s.publisher p = .creating then
      { s with
        graceful := s.graceful.create (.app p)
        publisher := Function.update s.publisher p .publishing }
    else s
  | .createFails p =>
    if s.publisher p = .creating then
      { s with
        heartbeat := s.heartbeat.close (.app p)
        publisher := Function.update s.publisher p .stopped }
    else s
  | .pulse p =>
    if s.publisher p = .publishing then { s with heartbeat := s.heartbeat.set (.app p) } else s
  | .SignalGracefulShutdown p =>
    if s.publisher p = .publishing then { s with graceful := s.graceful.set (.app p) } else s
  | .closeHeartbeat p =>
    if s.publisher p = .publishing then
      { s with
        heartbeat := s.heartbeat.close (.app p)
        publisher := Function.update s.publisher p .stopping }
    else s
  | .closeGraceful p =>
    if s.publisher p = .stopping then
      { s with
        graceful := s.graceful.close (.app p)
        publisher := Function.update s.publisher p .stopped }
    else s
  | .ends p =>
    { s.release (.app p) with
      running := s.running.erase p
      publisher := Function.update s.publisher p .stopped }
  | .LaunchWatchdogProcess => if s.dog = .off ∨ s.dog = .exited then { s with dog := .sleeping } else s
  | .KillWatchdogProcess => { s.release .watchdog with dog := .off }
  | .dog spawned => s.stepDog spawned

end Processes

/-- An interleaving of the steps of all processes. -/
def processRun {π : Type} [DecidableEq π] (events : List (ProcessEvent π)) : Processes π :=
  Machine.run Processes.step .init events

/-- The handles are those that the processes know of. -/
structure Processes.HandleInv {π : Type} (s : Processes π) : Prop where
  stopped : ∀ p, p ∉ s.running → s.publisher p = .stopped
  heartbeat : ∀ p, .app p ∈ s.heartbeat.holders ↔ (s.publisher p).holdsHeartbeat = true
  graceful : ∀ p, .app p ∈ s.graceful.holders ↔ (s.publisher p).holdsGraceful = true
  dogHeartbeat : .watchdog ∈ s.heartbeat.holders ↔ s.dog.holdsHeartbeat = true
  dogGraceful : .watchdog ∈ s.graceful.holders ↔ s.dog.holdsGraceful = true

namespace Processes

section Handles

variable {π : Type} {s : Processes π}

/-- At the start. -/
lemma HandleInv.start : (init : Processes π).HandleInv where
  stopped _ _ := rfl
  heartbeat _ := by simp [init, Publisher.holdsHeartbeat]
  graceful _ := by simp [init, Publisher.holdsGraceful]
  dogHeartbeat := by simp [init, Dog.holdsHeartbeat]
  dogGraceful := by simp [init, Dog.holdsGraceful]

/-- A step of the watchdog that touches the handles of nobody else. -/
lemma HandleInv.dog {t : Processes π} (h : s.HandleInv) (hrunning : s.running ⊆ t.running)
    (hpublisher : t.publisher = s.publisher)
    (hheartbeat : ∀ p, .app p ∈ t.heartbeat.holders ↔ .app p ∈ s.heartbeat.holders)
    (hgraceful : ∀ p, .app p ∈ t.graceful.holders ↔ .app p ∈ s.graceful.holders)
    (hdogHeartbeat : .watchdog ∈ t.heartbeat.holders ↔ t.dog.holdsHeartbeat = true)
    (hdogGraceful : .watchdog ∈ t.graceful.holders ↔ t.dog.holdsGraceful = true) : t.HandleInv where
  stopped p hp := by rw [hpublisher, h.stopped p fun hs => hp (hrunning hs)]
  heartbeat p := by rw [hheartbeat, hpublisher, h.heartbeat]
  graceful p := by rw [hgraceful, hpublisher, h.graceful]
  dogHeartbeat := hdogHeartbeat
  dogGraceful := hdogGraceful

variable [DecidableEq π] {p : π}

/-- A step of an instance that changes its own handles along with its publisher. -/
lemma HandleInv.publish {t : Processes π} {now : Publisher} (h : s.HandleInv)
    (hrunning : t.running = s.running) (hdog : t.dog = s.dog)
    (hpublisher : t.publisher = Function.update s.publisher p now)
    (hstopped : p ∈ s.running ∨ now = .stopped)
    (hheartbeat : ∀ owner, owner ≠ .app p →
      (owner ∈ t.heartbeat.holders ↔ owner ∈ s.heartbeat.holders))
    (hgraceful : ∀ owner, owner ≠ .app p →
      (owner ∈ t.graceful.holders ↔ owner ∈ s.graceful.holders))
    (hownHeartbeat : .app p ∈ t.heartbeat.holders ↔ now.holdsHeartbeat = true)
    (hownGraceful : .app p ∈ t.graceful.holders ↔ now.holdsGraceful = true) : t.HandleInv where
  stopped q hq := by
    rw [hrunning] at hq
    rw [hpublisher]
    by_cases hqp : q = p
    · subst hqp
      rw [Function.update_self]
      exact hstopped.resolve_left hq
    · rw [Function.update_of_ne hqp, h.stopped q hq]
  heartbeat q := by
    rw [hpublisher]
    by_cases hqp : q = p
    · subst hqp
      rw [Function.update_self, hownHeartbeat]
    · rw [Function.update_of_ne hqp, hheartbeat _ (by simpa using hqp), h.heartbeat]
  graceful q := by
    rw [hpublisher]
    by_cases hqp : q = p
    · subst hqp
      rw [Function.update_self, hownGraceful]
    · rw [Function.update_of_ne hqp, hgraceful _ (by simpa using hqp), h.graceful]
  dogHeartbeat := by rw [hheartbeat .watchdog nofun, hdog, h.dogHeartbeat]
  dogGraceful := by rw [hgraceful .watchdog nofun, hdog, h.dogGraceful]

/-- The watchdog takes a step. -/
lemma HandleInv.stepDog (h : s.HandleInv) (spawned : Option π) : (s.stepDog spawned).HandleInv := by
  obtain ⟨hstopped, hheartbeat, hgraceful, hdogHeartbeat, hdogGraceful⟩ := id h
  unfold Processes.stepDog
  split
  · exact h
  · next hdog =>
    rw [hdog] at hdogHeartbeat hdogGraceful
    exact h.dog subset_rfl rfl (fun _ => .rfl) (fun _ => .rfl) hdogHeartbeat hdogGraceful
  · next hdog =>
    rw [hdog] at hdogHeartbeat hdogGraceful
    have hnot : .watchdog ∉ s.heartbeat.holders :=
      fun hmem => Bool.false_ne_true (hdogHeartbeat.1 hmem)
    refine h.dog subset_rfl rfl (fun p => NamedEvent.mem_tryOpen_holders_of_ne _ _ _ nofun)
      (fun _ => .rfl) ?_ ?_
    · exact NamedEvent.mem_tryOpen_holders _ _ hnot
    · exact hdogGraceful
  · next heartbeat hdog =>
    rw [hdog] at hdogHeartbeat hdogGraceful
    have hnot : .watchdog ∉ s.graceful.holders :=
      fun hmem => Bool.false_ne_true (hdogGraceful.1 hmem)
    refine h.dog subset_rfl rfl (fun _ => .rfl)
      (fun p => NamedEvent.mem_tryOpen_holders_of_ne _ _ _ nofun) ?_ ?_
    · show .watchdog ∈ s.heartbeat.holders ↔ _
      rw [hdogHeartbeat]
      dsimp only
      split
      · next hboth => simp [Dog.holdsHeartbeat, hboth.1]
      · rfl
    · show .watchdog ∈ (s.graceful.tryOpen .watchdog).1.holders ↔ _
      rw [NamedEvent.mem_tryOpen_holders _ _ hnot]
      dsimp only
      split
      · next hboth => simp [Dog.holdsGraceful, hboth.2]
      · rfl
  · next graceful hdog =>
    rw [hdog] at hdogGraceful
    refine h.dog subset_rfl rfl (fun p => by simp) (fun _ => .rfl) ?_ hdogGraceful
    simp [Dog.holdsHeartbeat]
  · next hdog =>
    rw [hdog] at hdogHeartbeat
    refine h.dog subset_rfl rfl (fun _ => .rfl) (fun p => by simp) hdogHeartbeat ?_
    simp [Dog.holdsGraceful]
  · next hdog =>
    rw [hdog] at hdogHeartbeat hdogGraceful
    refine h.dog subset_rfl rfl (fun _ => .rfl) (fun _ => .rfl) ?_ ?_
    · rw [hdogHeartbeat]
      dsimp only
      split <;> rfl
    · rw [hdogGraceful]
      dsimp only
      split <;> rfl
  · next hdog =>
    rw [hdog] at hdogHeartbeat hdogGraceful
    split
    · exact h.dog subset_rfl rfl (fun _ => .rfl) (fun _ => .rfl) hdogHeartbeat hdogGraceful
    · exact h.dog subset_rfl rfl (fun _ => .rfl) (fun _ => .rfl) hdogHeartbeat hdogGraceful
  · next hdog =>
    rw [hdog] at hdogGraceful
    refine h.dog subset_rfl rfl (fun p => by simp) (fun _ => .rfl) ?_ hdogGraceful
    simp [Dog.holdsHeartbeat]
  · next hdog =>
    rw [hdog] at hdogHeartbeat
    refine h.dog subset_rfl rfl (fun _ => .rfl) (fun p => by simp) hdogHeartbeat ?_
    simp [Dog.holdsGraceful]
  · next hdog =>
    rw [hdog] at hdogGraceful
    refine h.dog subset_rfl rfl (fun p => by simp) (fun _ => .rfl) ?_ hdogGraceful
    simp [Dog.holdsHeartbeat]
  · next hdog =>
    rw [hdog] at hdogHeartbeat hdogGraceful
    exact h.dog subset_rfl rfl (fun _ => .rfl) (fun _ => .rfl) hdogHeartbeat hdogGraceful
  · next gracefulState hdog =>
    rw [hdog] at hdogHeartbeat
    refine h.dog subset_rfl rfl (fun _ => .rfl) (fun p => by simp) ?_ ?_
    · rw [hdogHeartbeat]
      dsimp only
      split <;> rfl
    · dsimp only
      split <;> simp [Dog.holdsGraceful]
  · next hdog =>
    rw [hdog] at hdogHeartbeat hdogGraceful
    refine h.dog subset_rfl rfl (fun _ => .rfl) (fun _ => .rfl) ?_ ?_
    · rw [hdogHeartbeat]
      dsimp only
      split <;> rfl
    · rw [hdogGraceful]
      dsimp only
      split <;> rfl
  · next hdog =>
    rw [hdog] at hdogHeartbeat hdogGraceful
    split
    · exact h.dog (Finset.subset_insert _ _) rfl (fun _ => .rfl) (fun _ => .rfl) hdogHeartbeat
        hdogGraceful
    · exact h.dog subset_rfl rfl (fun _ => .rfl) (fun _ => .rfl) hdogHeartbeat hdogGraceful
  · exact h

/-- Every step keeps the handles. -/
lemma HandleInv.step (h : s.HandleInv) (e : ProcessEvent π) : (s.step e).HandleInv := by
  have hstopped := h.stopped
  have hown := h.heartbeat
  have hownGraceful := h.graceful
  cases e with
  | start p =>
    exact h.dog (Finset.subset_insert _ _) rfl (fun _ => .rfl) (fun _ => .rfl) h.dogHeartbeat
      h.dogGraceful
  | createHeartbeat p =>
    simp only [Processes.step]
    split
    · next hp =>
      refine h.publish rfl rfl rfl (.inl hp.1) ?_ (fun _ _ => .rfl) ?_ ?_
      · intro owner howner
        simp [howner]
      · simp [Publisher.holdsHeartbeat]
      · rw [hownGraceful, hp.2]
        rfl
    · exact h
  | createGraceful p =>
    simp only [Processes.step]
    split
    · next hp =>
      refine h.publish rfl rfl rfl (.inl ?_) (fun _ _ => .rfl) ?_ ?_ ?_
      · by_contra hnot
        exact absurd (hp.symm.trans (hstopped p hnot)) nofun
      · intro owner howner
        simp [howner]
      · rw [hown, hp]
        rfl
      · simp [Publisher.holdsGraceful]
    · exact h
  | createFails p =>
    simp only [Processes.step]
    split
    · next hp =>
      refine h.publish rfl rfl rfl (.inr rfl) ?_ (fun _ _ => .rfl) ?_ ?_
      · intro owner howner
        simp [howner]
      · simp [Publisher.holdsHeartbeat]
      · rw [hownGraceful, hp]
        rfl
    · exact h
  | pulse p =>
    simp only [Processes.step]
    split
    · exact h.dog subset_rfl rfl (fun _ => by simp) (fun _ => .rfl) (by simpa using h.dogHeartbeat)
        h.dogGraceful
    · exact h
  | SignalGracefulShutdown p =>
    simp only [Processes.step]
    split
    · exact h.dog subset_rfl rfl (fun _ => .rfl) (fun _ => by simp) h.dogHeartbeat
        (by simpa using h.dogGraceful)
    · exact h
  | closeHeartbeat p =>
    simp only [Processes.step]
    split
    · next hp =>
      refine h.publish rfl rfl rfl (.inl ?_) ?_ (fun _ _ => .rfl) ?_ ?_
      · by_contra hnot
        exact absurd (hp.symm.trans (hstopped p hnot)) nofun
      · intro owner howner
        simp [howner]
      · simp [Publisher.holdsHeartbeat]
      · rw [hownGraceful, hp]
        rfl
    · exact h
  | closeGraceful p =>
    simp only [Processes.step]
    split
    · next hp =>
      refine h.publish rfl rfl rfl (.inr rfl) (fun _ _ => .rfl) ?_ ?_ ?_
      · intro owner howner
        simp [howner]
      · rw [hown, hp]
        rfl
      · simp [Publisher.holdsGraceful]
    · exact h
  | ends p =>
    have hclosed : ({ s.release (.app p) with
        publisher := Function.update s.publisher p .stopped } : Processes π).HandleInv := by
      refine h.publish rfl rfl rfl (.inr rfl) ?_ ?_ ?_ ?_
      · intro owner howner
        simp [release, howner]
      · intro owner howner
        simp [release, howner]
      · simp [release, Publisher.holdsHeartbeat]
      · simp [release, Publisher.holdsGraceful]
    refine ⟨fun q hq => ?_, hclosed.heartbeat, hclosed.graceful, hclosed.dogHeartbeat,
      hclosed.dogGraceful⟩
    show Function.update s.publisher p .stopped q = .stopped
    by_cases hqp : q = p
    · rw [hqp, Function.update_self]
    · rw [Function.update_of_ne hqp]
      exact hstopped q fun hmem => hq (Finset.mem_erase.2 ⟨hqp, hmem⟩)
  | LaunchWatchdogProcess =>
    simp only [Processes.step]
    split
    · next hdog =>
      have hoff : s.dog.holdsHeartbeat = false ∧ s.dog.holdsGraceful = false := by
        obtain hdog | hdog := hdog
        · rw [hdog]
          exact ⟨rfl, rfl⟩
        · rw [hdog]
          exact ⟨rfl, rfl⟩
      refine h.dog subset_rfl rfl (fun _ => .rfl) (fun _ => .rfl) ?_ ?_
      · rw [h.dogHeartbeat, hoff.1]
        rfl
      · rw [h.dogGraceful, hoff.2]
        rfl
    · exact h
  | KillWatchdogProcess =>
    refine h.dog subset_rfl rfl (fun p => ?_) (fun p => ?_) ?_ ?_
    · simp [Processes.step, release]
    · simp [Processes.step, release]
    · simp [Processes.step, release, Dog.holdsHeartbeat]
    · simp [Processes.step, release, Dog.holdsGraceful]
  | dog spawned => exact h.stepDog spawned

/-- The invariant holds in every run. -/
lemma handleInv {events : List (ProcessEvent π)} : (processRun events).HandleInv :=
  Machine.run_invariant HandleInv.start fun h => h.step _

end Handles

end Processes

end NextKey
