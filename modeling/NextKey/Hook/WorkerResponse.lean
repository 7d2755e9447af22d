import Mathlib.Data.List.Infix
import Mathlib.Tactic.ApplyFun
import NextKey.Hook.MainThreadWorker

/-!
# What the worker makes of signals and of silence

A signal on a running worker is answered by a start of the work handler, in whatever order the other
threads take their steps: one notification and two steps of the worker after it are enough
(`signal_answered`). Every start of the work handler answers a signal of its own, and nothing starts
once `Stop` is done (`starts_answer`). A tick ends a wait that lasted the whole interval and in which
nobody signaled, and the worker is in this wait from its beginning to the tick (`tick_quiet`).
-/

namespace NextKey

namespace MainThreadWorker

variable {η : Type} {s t u : MainThreadWorker η} {e : WorkerEvent η} {es : List (WorkerEvent η)}

/-- What the worker itself adds to the record. -/
lemma stepWorker_log : s.stepWorker.log = s.log ∨ ∃ x, s.stepWorker.log = x :: s.log ∧
    s.phase ≠ .none ∧
    (∀ handler, x = .work handler → s.workPending = true ∧ s.stepWorker.phase = .work handler) ∧
    ∀ handler, x = .tick handler → s.phase = .expired ∧ s.workPending = false := by
  obtain hsame | ⟨hnone, -, ⟨d, hstep, -⟩ | hstep | hstep | ⟨hstep, hpredicate⟩ | ⟨hstep, hexpired⟩⟩ :=
    s.stepWorker_cases
  · exact .inl (by rw [hsame])
  · exact .inl (by rw [hstep])
  · exact .inl (by rw [hstep])
  · exact .inl (by rw [hstep])
  · rw [hstep, takeWork]
    split
    · exact .inl rfl
    · next hstop =>
      refine .inr ⟨_, rfl, hnone, fun handler hwork => ⟨?_, ?_⟩, nofun⟩
      · simpa [predicate, hstop] using hpredicate
      · exact congrArg WorkerPhase.work (WorkerEntry.work.inj hwork)
  · rw [hstep]
    exact .inr ⟨_, rfl, hnone, nofun, fun _ _ => ⟨hexpired.1, (Bool.or_eq_false_iff.1 hexpired.2).2⟩⟩

/-- A step writes one entry at most, and the start of a handler only where there is a thread to run it,
for the work handler with a signal to answer, and for a tick at the end of a wait without one. -/
lemma step_log_cases : (s.step e).log = s.log ∨ ∃ x, (s.step e).log = x :: s.log ∧
    (x = .signaled ∨ x = .dropped ∨
      e = .worker ∧ s.phase ≠ .none ∧
        (∀ handler, x = .work handler → s.workPending = true ∧ (s.step e).phase = .work handler) ∧
        ∀ handler, x = .tick handler → s.phase = .expired ∧ s.workPending = false) := by
  cases e with
  | worker =>
    obtain hsame | ⟨x, hlog, hx⟩ := s.stepWorker_log
    · exact .inl hsame
    · exact .inr ⟨x, hlog, .inr (.inr ⟨rfl, hx⟩)⟩
  | owner =>
    simp only [step, stepOwner]
    split
    case h_6 => exact .inr ⟨_, rfl, .inr (.inl rfl)⟩
    case h_4 => split <;> exact .inl rfl
    all_goals exact .inl rfl
  | Start =>
    simp only [step]
    split
    · split <;> exact .inl rfl
    · exact .inl rfl
  | Stop =>
    simp only [step]
    split
    · split
      · exact .inr ⟨_, rfl, .inr (.inl rfl)⟩
      · exact .inl rfl
    · exact .inl rfl
  | Signal => exact .inr ⟨_, rfl, .inl rfl⟩
  | notify =>
    simp only [step]
    split <;> exact .inl rfl
  | _ => exact .inl rfl

/-- The record only grows in a step. -/
lemma step_log : s.log <:+ (s.step e).log := by
  obtain hsame | ⟨x, hlog, -⟩ := s.step_log_cases (e := e)
  · rw [hsame]
  · rw [hlog]
    exact List.suffix_cons _ _

/-- The record only grows in a run. -/
lemma run_log : s.log <:+ (Machine.run step s es).log := by
  induction es generalizing s with
  | nil => exact List.suffix_rfl
  | cons e es ih => exact step_log.trans ih

/-- The work handler starts on the way from one state to another. -/
def StartsWork (s t : MainThreadWorker η) : Prop :=
  ∃ handler newer older, t.log = newer ++ .work handler :: (older ++ s.log)

/-- What has started has started later on. -/
lemma StartsWork.later (h : StartsWork s t) (htu : t.log <:+ u.log) : StartsWork s u := by
  obtain ⟨handler, newer, older, hlog⟩ := h
  obtain ⟨newest, hnewest⟩ := htu
  exact ⟨handler, newest ++ newer, older, by rw [← hnewest, hlog, List.append_assoc]⟩

/-- What starts from a later state starts from an earlier one. -/
lemma StartsWork.earlier (h : StartsWork t u) (hst : s.log <:+ t.log) : StartsWork s u := by
  obtain ⟨handler, newer, older, hlog⟩ := h
  obtain ⟨between, hbetween⟩ := hst
  exact ⟨handler, newer, older ++ between, by rw [hlog, ← hbetween, List.append_assoc]⟩

/-- The worker runs, and a signal waits for it. -/
structure Awaits (s : MainThreadWorker η) : Prop where
  inv : s.WorkerInv
  owner : s.owner = .idle
  running : s.running = true
  pending : s.workPending = true

/-- A worker that awaits is not stopped. -/
lemma Awaits.serving (h : s.Awaits) : s.stopRequested = false := h.inv.serving h.owner h.running

/-- A worker that awaits has something to do. -/
lemma Awaits.predicate (h : s.Awaits) : s.predicate = true := by
  rw [MainThreadWorker.predicate, h.pending, Bool.or_true]

/-- The worker does not sleep. -/
def Awake (s : MainThreadWorker η) : Prop := ∀ d, s.phase ≠ .blocked d

/-- The steps a worker that does not sleep needs to start the handler, the start included. -/
def remaining : WorkerPhase η → Nat
  | .work _ | .tick _ => 2
  | _ => 1

/-- A wake-up does not change what remains. -/
lemma remaining_wake {phase : WorkerPhase η} : remaining (wake phase) = remaining phase := by
  cases phase <;> rfl

/-- A worker that takes the work starts its handler. -/
lemma Awaits.takeWork (h : s.Awaits) : StartsWork s s.takeWork := by
  rw [MainThreadWorker.takeWork, if_neg (by simp [h.serving])]
  exact ⟨s.workHandler, [], [], rfl⟩

/-- The end of a wait is all that a sleeping worker sees itself. -/
lemma stepWorker_of_blocked {d} (hphase : s.phase = .blocked d) :
    s.stepWorker = s ∨ s.stepWorker = { s with phase := .expired } := by
  cases d with
  | none => exact .inl (by simp only [stepWorker, hphase])
  | some d =>
    by_cases hd : d ≤ s.now
    · exact .inr (by simp only [stepWorker, hphase, if_pos hd])
    · exact .inl (by simp only [stepWorker, hphase, if_neg hd])

/-- A step of the worker starts the handler or leaves the signal, and brings an awake worker closer. -/
lemma Awaits.stepWorker (h : s.Awaits) : StartsWork s s.stepWorker ∨
    s.stepWorker.Awaits ∧
      (s.Awake → s.stepWorker.Awake ∧ remaining s.stepWorker.phase < remaining s.phase) := by
  have hinv := h.inv.stepWorker
  -- out of the lock, the condition of the wait is met
  have hstarts : s.stepWorker = s.takeWork → StartsWork s s.stepWorker := fun hstep => by
    rw [hstep]
    exact h.takeWork
  -- after a handler, the worker goes for the lock
  have hlock : s.stepWorker = { s with phase := .lock } → s.stepWorker.Awaits ∧ s.stepWorker.Awake := by
    intro hstep
    rw [hstep] at hinv ⊢
    exact ⟨⟨hinv, h.owner, h.running, h.pending⟩, nofun⟩
  cases hphase : s.phase with
  | none => exact absurd hphase ((h.inv.running h.owner).1 h.running)
  | returned => exact absurd h.owner (h.inv.returned hphase).2
  | lock => exact .inl (hstarts (by simp [MainThreadWorker.stepWorker, hphase, h.predicate]))
  | woken d => exact .inl (hstarts (by simp [MainThreadWorker.stepWorker, hphase, h.predicate]))
  | expired => exact .inl (hstarts (by simp [MainThreadWorker.stepWorker, hphase, h.predicate]))
  | blocked d =>
    refine .inr ⟨?_, fun hawake => absurd hphase (hawake d)⟩
    obtain hstep | hstep := stepWorker_of_blocked hphase
    · rwa [hstep]
    · rw [hstep] at hinv ⊢
      exact ⟨hinv, h.owner, h.running, h.pending⟩
  | work handler =>
    have hstep : s.stepWorker = { s with phase := .lock } := by
      simp only [MainThreadWorker.stepWorker, hphase]
    obtain ⟨hawaits, hawake⟩ := hlock hstep
    exact .inr ⟨hawaits, fun _ => ⟨hawake, by rw [hstep]; exact Nat.one_lt_two⟩⟩
  | tick handler =>
    have hstep : s.stepWorker = { s with phase := .lock } := by
      simp only [MainThreadWorker.stepWorker, hphase]
    obtain ⟨hawaits, hawake⟩ := hlock hstep
    exact .inr ⟨hawaits, fun _ => ⟨hawake, by rw [hstep]; exact Nat.one_lt_two⟩⟩

/-- The steps of the other threads leave the signal, and at most wake the worker. -/
lemma Awaits.other (h : s.Awaits) (hworker : e ≠ .worker) (hstop : e ≠ .Stop) :
    (s.step e).Awaits ∧ ((s.step e).phase = s.phase ∨ (s.step e).phase = wake s.phase) := by
  have hinv := h.inv.step (e := e)
  cases e with
  | worker => exact absurd rfl hworker
  | Stop => exact absurd rfl hstop
  | Start =>
    have hsame : s.step .Start = s := by simp [step, h.owner, h.running]
    rw [hsame]
    exact ⟨h, .inl rfl⟩
  | owner =>
    have hsame : s.step .owner = s := by simp [step, stepOwner, h.owner]
    rw [hsame]
    exact ⟨h, .inl rfl⟩
  | SetWorkHandler handler => exact ⟨⟨hinv, h.owner, h.running, h.pending⟩, .inl rfl⟩
  | SetTickHandler handler => exact ⟨⟨hinv, h.owner, h.running, h.pending⟩, .inl rfl⟩
  | SetTickInterval interval => exact ⟨⟨hinv, h.owner, h.running, h.pending⟩, .inl rfl⟩
  | Signal => exact ⟨⟨hinv, h.owner, h.running, rfl⟩, .inl rfl⟩
  | notify =>
    simp only [step] at hinv ⊢
    split at hinv
    · exact ⟨h, .inl rfl⟩
    · exact ⟨⟨hinv, h.owner, h.running, h.pending⟩, .inr rfl⟩
  | spurious => exact ⟨⟨hinv, h.owner, h.running, h.pending⟩, .inr rfl⟩
  | elapse ms => exact ⟨⟨hinv, h.owner, h.running, h.pending⟩, .inl rfl⟩

/-- A notification finds the worker awake or wakes it. -/
lemma Awaits.notify (h : s.Awaits) : (s.step .notify).Awake := by
  intro d hd
  simp only [step] at hd
  split at hd
  · next hnone =>
    rcases h.inv.notified d hd h.predicate with hnotifies | howner
    · exact absurd hnone (by omega)
    · exact absurd (h.owner.symm.trans howner) (by simp)
  · exact wake_ne_blocked hd

/-- Short of Stop, a step starts the work or leaves it awaited. -/
lemma Awaits.step (h : s.Awaits) (hstop : e ≠ .Stop) :
    StartsWork s (s.step e) ∨ (s.step e).Awaits := by
  by_cases hworker : e = .worker
  · subst hworker
    exact h.stepWorker.imp_right And.left
  · exact .inr (h.other hworker hstop).1

/-- What waits for an awake worker is answered in as many steps of the worker as it needs. -/
lemma Awaits.answered (h : s.Awaits) (hawake : s.Awake) (hstop : .Stop ∉ es)
    (hsteps : remaining s.phase ≤ es.countP (· matches .worker)) :
    StartsWork s (Machine.run MainThreadWorker.step s es) := by
  induction es generalizing s with
  | nil =>
    have hpos : 0 < remaining s.phase := by cases s.phase <;> simp [remaining]
    exact absurd hsteps (by simpa using hpos.ne')
  | cons e es ih =>
    rw [Machine.run_cons]
    obtain ⟨hne, hrest⟩ := not_or.1 (mt List.mem_cons.2 hstop)
    by_cases hworker : e = .worker
    · subst hworker
      rw [List.countP_cons_of_pos rfl] at hsteps
      obtain hstarts | ⟨hawaits, hcloser⟩ := h.stepWorker
      · exact hstarts.later run_log
      · obtain ⟨hawake', hlt⟩ := hcloser hawake
        exact (ih hawaits hawake' hrest (by omega)).earlier (step_log (e := .worker))
    · rw [List.countP_cons_of_neg (by cases e <;> simp_all)] at hsteps
      obtain ⟨hawaits, hphase | hphase⟩ := h.other hworker (Ne.symm hne)
      · refine (ih hawaits ?_ hrest (by rwa [hphase])).earlier step_log
        rwa [Awake, hphase]
      · refine (ih hawaits ?_ hrest (by rwa [hphase, remaining_wake])).earlier step_log
        rw [Awake, hphase]
        exact fun d => wake_ne_blocked

/-- Short of Stop, so does a run. -/
lemma Awaits.run (h : s.Awaits) (hstop : .Stop ∉ es) :
    StartsWork s (Machine.run MainThreadWorker.step s es) ∨
      (Machine.run MainThreadWorker.step s es).Awaits := by
  induction es generalizing s with
  | nil => exact .inr h
  | cons e es ih =>
    obtain ⟨hne, hrest⟩ := not_or.1 (mt List.mem_cons.2 hstop)
    rw [Machine.run_cons]
    obtain hstarts | hawaits := h.step (Ne.symm hne)
    · exact .inl (hstarts.later run_log)
    · exact (ih hawaits hrest).imp_left fun hstarts => hstarts.earlier step_log

/-- Every start of the work handler in a log found a signal that had not been answered. -/
def Answers (log : List (WorkerEntry η)) : Prop :=
  ∀ newer handler older, log = newer ++ .work handler :: older → unanswered older = true

/-- An entry answers a signal, or is no start. -/
lemma Answers.cons {x : WorkerEntry η} {log} (h : Answers log)
    (hx : ∀ handler, x = .work handler → unanswered log = true) : Answers (x :: log) := by
  intro newer handler older hlog
  cases newer with
  | nil =>
    obtain ⟨rfl, rfl⟩ := List.cons_eq_cons.1 hlog
    exact hx handler rfl
  | cons y newer =>
    obtain ⟨rfl, rfl⟩ := List.cons_eq_cons.1 hlog
    exact h newer handler older rfl

/-- Every step keeps the answers in order. -/
lemma Answers.step (h : Answers s.log) (hinv : s.WorkerInv) : Answers (s.step e).log := by
  obtain hsame | ⟨x, hlog, hx⟩ := s.step_log_cases (e := e)
  · rwa [hsame]
  · rw [hlog]
    refine h.cons fun handler hwork => ?_
    obtain rfl | rfl | ⟨-, -, hpending, -⟩ := hx
    · cases hwork
    · cases hwork
    · exact hinv.pending.symm.trans (hpending handler hwork).1

/-- There is no thread, and none is started. -/
structure Off (s : MainThreadWorker η) : Prop where
  owner : s.owner = .idle
  running : s.running = false
  phase : s.phase = .none

/-- Without Start a stopped worker stays off. -/
lemma Off.step (h : s.Off) (hstart : e ≠ .Start) : (s.step e).Off := by
  obtain ⟨howner, hrunning, hphase⟩ := h
  cases e with
  | Start => exact absurd rfl hstart
  | Stop =>
    have hstep : s.step .Stop = { s with workPending := false, log := .dropped :: s.log } := by
      simp only [MainThreadWorker.step, howner, hrunning, hphase]
    rw [hstep]
    exact ⟨howner, hrunning, hphase⟩
  | owner =>
    have hstep : s.step .owner = s := by simp only [MainThreadWorker.step, stepOwner, howner]
    rw [hstep]
    exact ⟨howner, hrunning, hphase⟩
  | worker =>
    have hstep : s.step .worker = s := by simp only [MainThreadWorker.step, stepWorker, hphase]
    rw [hstep]
    exact ⟨howner, hrunning, hphase⟩
  | notify =>
    simp only [MainThreadWorker.step]
    split
    · exact ⟨howner, hrunning, hphase⟩
    · exact ⟨howner, hrunning, wake_eq_none.2 hphase⟩
  | spurious => exact ⟨howner, hrunning, wake_eq_none.2 hphase⟩
  | _ => exact ⟨howner, hrunning, hphase⟩

/-- Without a thread, only signals are noted, and that they are dropped. -/
lemma Off.run_log (h : s.Off) (hstart : .Start ∉ es) :
    ∃ newer, (Machine.run MainThreadWorker.step s es).log = newer ++ s.log ∧
      ∀ x ∈ newer, x = .signaled ∨ x = .dropped := by
  induction es generalizing s with
  | nil => exact ⟨[], rfl, by simp⟩
  | cons e es ih =>
    obtain ⟨hne, hrest⟩ := not_or.1 (mt List.mem_cons.2 hstart)
    obtain ⟨newer, hlog, hnewer⟩ := ih (h.step (Ne.symm hne)) hrest
    rw [Machine.run_cons, hlog]
    obtain hsame | ⟨x, hx, hkind⟩ := s.step_log_cases (e := e)
    · exact ⟨newer, by rw [hsame], hnewer⟩
    · refine ⟨newer ++ [x], by simp [hx], fun y hy => ?_⟩
      obtain hy | hy := List.mem_append.1 hy
      · exact hnewer y hy
      · rw [List.mem_singleton.1 hy]
        obtain hsignaled | hdropped | ⟨-, hnone, -⟩ := hkind
        · exact .inl hsignaled
        · exact .inr hdropped
        · exact absurd h.phase hnone

end MainThreadWorker

open MainThreadWorker

/-- On a worker that runs, a signal is answered by a start of the work handler, whatever the other threads
do short of `Stop`, once a notification is delivered and the worker has taken two steps after it. -/
theorem signal_answered {η : Type} {events before after : List (WorkerEvent η)}
    (howner : (workerRun events).owner = .idle) (hrunning : (workerRun events).IsRunning = true)
    (hsignal : unanswered (workerRun events).log = true) (hbefore : .Stop ∉ before)
    (hafter : .Stop ∉ after) (hsteps : 2 ≤ after.countP (· matches .worker)) :
    StartsWork (workerRun events) (workerRun (events ++ before ++ .notify :: after)) := by
  have hawaits : (workerRun events).Awaits :=
    ⟨workerInv, howner, hrunning, workerInv.pending.trans hsignal⟩
  unfold workerRun at hawaits ⊢
  rw [Machine.run_append, Machine.run_append, Machine.run_cons]
  obtain hstarts | hawaits := hawaits.run hbefore
  · exact hstarts.later (step_log.trans run_log)
  · have hnotified := (hawaits.other (e := .notify) nofun nofun).1
    have hneeds : ∀ phase : WorkerPhase η, remaining phase ≤ 2 := by
      intro phase
      cases phase <;> simp [remaining]
    exact (hnotified.answered hawaits.notify hafter ((hneeds _).trans hsteps)).earlier
      (run_log.trans step_log)

/-- A signal that reaches the worker in its sleep. -/
theorem signal_answered_once :
    StartsWork (workerRun [.Start, .owner, .worker, .Signal] : MainThreadWorker Unit)
      (workerRun ([.Start, .owner, .worker, .Signal] ++ [] ++ .notify :: [.worker, .worker])) :=
  signal_answered rfl rfl rfl (by decide) (by decide) (by decide)

/-- Every start of the work handler comes after a signal that no earlier start has answered and no end of
`Stop` has dropped. -/
theorem work_answers {η : Type} {events : List (WorkerEvent η)} {newer handler older}
    (hlog : (workerRun events).log = newer ++ .work handler :: older) : unanswered older = true := by
  have hrun : (workerRun events).WorkerInv ∧ Answers (workerRun events).log :=
    @Machine.run_invariant _ _ step (fun s => s.WorkerInv ∧ Answers s.log) _ _
      ⟨WorkerInv.start, fun newer _ _ hlog => absurd (List.append_eq_nil_iff.1 hlog.symm).2 nofun⟩
      fun h => ⟨h.1.step, h.2.step h.1⟩
  exact hrun.2 newer handler older hlog

/-- Two signals before the worker comes to it make one start. -/
theorem work_answers_twice : unanswered ([.signaled, .signaled] : List (WorkerEntry Unit)) = true :=
  @work_answers _ [.Signal, .Signal, .Start, .owner, .worker, .worker, .worker] [] none _ rfl

/-- Once `Stop` is done, no handler starts until the next `Start`. -/
theorem stopped_quiet {η : Type} {events more : List (WorkerEvent η)}
    (howner : (workerRun events).owner = .idle) (hstopped : (workerRun events).IsRunning = false)
    (hstart : .Start ∉ more) :
    ∃ newer, (workerRun (events ++ more)).log = newer ++ (workerRun events).log ∧
      ∀ x ∈ newer, x = .signaled ∨ x = .dropped := by
  have hphase : (workerRun events).phase = .none := by
    by_contra hphase
    exact absurd (hstopped.symm.trans ((workerInv.running howner).2 hphase)) nofun
  have hoff : (workerRun events).Off := ⟨howner, hstopped, hphase⟩
  obtain ⟨newer, hlog, hnewer⟩ := hoff.run_log hstart
  refine ⟨newer, ?_, hnewer⟩
  rw [← hlog, workerRun, Machine.run_append, workerRun]

/-- A worker that was stopped in its sleep. -/
def stopped : List (WorkerEvent Unit) :=
  [.Start, .owner, .worker, .Stop, .owner, .worker, .owner, .owner, .owner]

/-- A signal after the stop starts nothing. -/
theorem stopped_quiet_signal :
    ∃ newer, (workerRun (stopped ++ [.Signal, .notify, .worker])).log =
        newer ++ (workerRun stopped).log ∧
      ∀ x ∈ newer, x = .signaled ∨ x = .dropped :=
  stopped_quiet rfl rfl (by decide)

namespace MainThreadWorker

variable {η : Type} {s : MainThreadWorker η} {e : WorkerEvent η} {events : List (WorkerEvent η)} {d : Nat}

/-- In a wait that is over at some time, or at its end. -/
def InWait (phase : WorkerPhase η) (d : Nat) : Prop :=
  phase = .blocked (some d) ∨ phase = .woken (some d) ∨ phase = .expired

/-- The worker is in a wait that is over at some time and has been in it since it began, and whoever
signaled in it left the flag set. -/
def WaitsUntil (events : List (WorkerEvent η)) (d : Nat) : Prop :=
  ∃ before after, events = before ++ .worker :: after ∧ (workerRun before).phase = .lock ∧
    0 < (workerRun before).tickInterval ∧
    d = (workerRun before).now + (workerRun before).tickInterval.toNat ∧
    (∀ during, during <+: after → InWait (workerRun (before ++ .worker :: during)).phase d) ∧
    ((workerRun events).workPending = false → .Signal ∉ after)

/-- The invariant of a wait with an end. -/
structure TickInv (events : List (WorkerEvent η)) : Prop where
  blocked : ∀ d, (workerRun events).phase = .blocked (some d) → WaitsUntil events d
  woken : ∀ d, (workerRun events).phase = .woken (some d) → WaitsUntil events d
  expired : (workerRun events).phase = .expired → ∃ d ≤ (workerRun events).now, WaitsUntil events d

/-- The last step of a run. -/
lemma workerRun_snoc : workerRun (events ++ [e]) = (workerRun events).step e := by
  rw [workerRun, Machine.run_append, ← workerRun]
  rfl

/-- Who is woken is still in the wait. -/
lemma InWait.wake {phase : WorkerPhase η} (h : InWait phase d) :
    InWait (MainThreadWorker.wake phase) d := by
  obtain rfl | rfl | rfl := h
  · exact .inr (.inl rfl)
  · exact .inr (.inl rfl)
  · exact .inr (.inr rfl)

/-- A wait goes on when the step does not end it and leaves a flag that is set. -/
lemma WaitsUntil.snoc (h : WaitsUntil events d) (hin : InWait ((workerRun events).step e).phase d)
    (hpending : ((workerRun events).step e).workPending = false →
      (workerRun events).workPending = false ∧ e ≠ .Signal) : WaitsUntil (events ++ [e]) d := by
  obtain ⟨before, after, rfl, hlock, hinterval, hd, hduring, hquiet⟩ := h
  refine ⟨before, after ++ [e], by simp, hlock, hinterval, hd, fun during hprefix => ?_, fun hfalse => ?_⟩
  · obtain rfl | hearlier := List.prefix_concat_iff.1 hprefix
    · rw [← List.cons_append, ← List.append_assoc, workerRun_snoc]
      exact hin
    · exact hduring during hearlier
  · rw [workerRun_snoc] at hfalse
    obtain ⟨hbefore, hne⟩ := hpending hfalse
    rw [List.mem_append, List.mem_singleton, not_or]
    exact ⟨hquiet hbefore, Ne.symm hne⟩

/-- Who is woken was blocked or woken. -/
lemma wake_eq_woken {phase : WorkerPhase η} {d} :
    wake phase = .woken d ↔ phase = .blocked d ∨ phase = .woken d := by
  cases phase <;> simp [wake]

/-- Who is expired was so. -/
lemma wake_eq_expired {phase : WorkerPhase η} : wake phase = .expired ↔ phase = .expired := by
  cases phase <;> simp [wake]

/-- What the other threads leave of a wait. -/
def Keeps (s : MainThreadWorker η) (e : WorkerEvent η) : Prop :=
  ((s.step e).phase = s.phase ∨ (s.step e).phase = wake s.phase) ∧ s.now ≤ (s.step e).now ∧
    ((s.step e).workPending = false → s.workPending = false ∧ e ≠ .Signal)

/-- A step that leaves the clock and the signal, and the phase or wakes the worker. -/
lemma kept_of_same {t : MainThreadWorker η} (hphase : t.phase = s.phase ∨ t.phase = wake s.phase)
    (hnow : t.now = s.now) (hpending : t.workPending = s.workPending) (hsignal : e ≠ .Signal) :
    (t.phase = s.phase ∨ t.phase = wake s.phase) ∧ s.now ≤ t.now ∧
      (t.workPending = false → s.workPending = false ∧ e ≠ .Signal) :=
  ⟨hphase, hnow.ge, fun hnone => ⟨hpending.symm.trans hnone, hsignal⟩⟩

/-- The owner leaves the worker in its wait, or lets it begin or end. -/
lemma keeps_owner (h : s.WorkerInv) :
    (s.step .owner).phase = .lock ∨ (s.step .owner).phase = .none ∨ s.Keeps .owner := by
  unfold Keeps
  simp only [step, stepOwner]
  cases howner : s.owner with
  | idle => exact .inr (.inr (kept_of_same (.inl rfl) rfl rfl (by simp)))
  | spawn => exact .inl rfl
  | notify => exact .inr (.inr (kept_of_same (.inr rfl) rfl rfl (by simp)))
  | join =>
    dsimp only
    split
    · exact .inr (.inl rfl)
    · exact .inr (.inl rfl)
    · exact .inr (.inr (kept_of_same (.inl rfl) rfl rfl (by simp)))
  | markStopped => exact .inr (.inr (kept_of_same (.inl rfl) rfl rfl (by simp)))
  | clear => exact .inr (.inl (h.joined (.inr howner)))

/-- So does any other thread. -/
lemma keeps_other (h : s.WorkerInv) (hworker : e ≠ .worker) :
    (s.step e).phase = .lock ∨ (s.step e).phase = .none ∨ s.Keeps e := by
  cases e with
  | worker => exact absurd rfl hworker
  | owner => exact keeps_owner h
  | Signal => exact .inr (.inr ⟨.inl rfl, le_rfl, by simp [step]⟩)
  | elapse ms => exact .inr (.inr ⟨.inl rfl, Nat.le_add_right _ _, fun hpending => ⟨hpending, by simp⟩⟩)
  | spurious => exact .inr (.inr (kept_of_same (.inr rfl) rfl rfl (by simp)))
  | notify =>
    unfold Keeps
    simp only [step]
    split
    · exact .inr (.inr (kept_of_same (.inl rfl) rfl rfl (by simp)))
    · exact .inr (.inr (kept_of_same (.inr rfl) rfl rfl (by simp)))
  | Start =>
    unfold Keeps
    simp only [step]
    cases s.owner with
    | idle =>
      by_cases hrunning : s.running = true
      · rw [if_pos hrunning]
        exact .inr (.inr (kept_of_same (.inl rfl) rfl rfl (by simp)))
      · rw [if_neg hrunning]
        exact .inr (.inr (kept_of_same (.inl rfl) rfl rfl (by simp)))
    | _ => exact .inr (.inr (kept_of_same (.inl rfl) rfl rfl (by simp)))
  | Stop =>
    unfold Keeps
    simp only [step]
    cases s.owner with
    | idle =>
      dsimp only
      split
      · next hphase => exact .inr (.inl hphase)
      · exact .inr (.inr (kept_of_same (.inl rfl) rfl rfl (by simp)))
    | _ => exact .inr (.inr (kept_of_same (.inl rfl) rfl rfl (by simp)))
  | _ => exact .inr (.inr (kept_of_same (.inl rfl) rfl rfl (by simp)))

/-- Another thread leaves the wait as it is. -/
lemma TickInv.other (h : TickInv events) (hworker : e ≠ .worker) : TickInv (events ++ [e]) := by
  obtain hlock | hnone | ⟨hphase, hnow, hpending⟩ :=
    keeps_other (@workerInv _ events) hworker
  · constructor <;> rw [workerRun_snoc, hlock] <;> exact nofun
  · constructor <;> rw [workerRun_snoc, hnone] <;> exact nofun
  · have hin : ∀ {d}, InWait (workerRun events).phase d → InWait ((workerRun events).step e).phase d := by
      intro d hwait
      obtain hsame | hwake := hphase
      · rwa [hsame]
      · rw [hwake]
        exact hwait.wake
    have hwaits : ∀ d, (workerRun events).phase = .blocked (some d) ∨
        (workerRun events).phase = .woken (some d) → WaitsUntil (events ++ [e]) d := by
      rintro d (hd | hd)
      · exact (h.blocked d hd).snoc (hin (.inl hd)) hpending
      · exact (h.woken d hd).snoc (hin (.inr (.inl hd))) hpending
    refine ⟨fun d hd => ?_, fun d hd => ?_, fun hexpired => ?_⟩
    · rw [workerRun_snoc] at hd
      obtain hsame | hwake := hphase
      · exact hwaits d (.inl (hsame.symm.trans hd))
      · exact absurd (hwake.symm.trans hd) wake_ne_blocked
    · rw [workerRun_snoc] at hd
      obtain hsame | hwake := hphase
      · exact hwaits d (.inr (hsame.symm.trans hd))
      · exact hwaits d (wake_eq_woken.1 (hwake.symm.trans hd))
    · rw [workerRun_snoc] at hexpired ⊢
      have hbefore : (workerRun events).phase = .expired := by
        obtain hsame | hwake := hphase
        · exact hsame.symm.trans hexpired
        · exact wake_eq_expired.1 (hwake.symm.trans hexpired)
      obtain ⟨d, hd, hwaits⟩ := h.expired hbefore
      exact ⟨d, hd.trans hnow, hwaits.snoc (hin (.inr (.inr hbefore))) hpending⟩

/-- The worker begins a wait, stays in it or leaves it. -/
lemma TickInv.worker (h : TickInv events) : TickInv (events ++ [.worker]) := by
  have hrun : workerRun (events ++ [.worker]) = (workerRun events).stepWorker := workerRun_snoc
  -- out of the wait there is nothing to show
  have hout : ∀ {t : MainThreadWorker η}, (workerRun events).stepWorker = t →
      (∀ d, t.phase ≠ .blocked (some d) ∧ t.phase ≠ .woken (some d)) → t.phase ≠ .expired →
      TickInv (events ++ [.worker]) := by
    rintro t hstep hwaits hexpired
    rw [hstep] at hrun
    refine ⟨fun d hd => ?_, fun d hd => ?_, fun hd => ?_⟩
    · exact absurd (hrun ▸ hd) (hwaits d).1
    · exact absurd (hrun ▸ hd) (hwaits d).2
    · exact absurd (hrun ▸ hd) hexpired
  have htake : (workerRun events).stepWorker = (workerRun events).takeWork →
      TickInv (events ++ [.worker]) := by
    intro hstep
    refine hout hstep (fun d => ?_) ?_ <;> unfold takeWork <;> split <;> simp
  -- into the wait or further on in it
  have hin : ∀ phase : WorkerPhase η,
      (workerRun events).stepWorker = { workerRun events with phase := phase } →
      (∀ d, phase = .blocked (some d) → WaitsUntil (events ++ [.worker]) d) →
      (∀ d, phase ≠ .woken d) →
      (phase = .expired → ∃ d ≤ (workerRun events).now, WaitsUntil (events ++ [.worker]) d) →
      TickInv (events ++ [.worker]) := by
    intro phase hstep hblocked hwoken hexpired
    rw [hstep] at hrun
    refine ⟨fun d hd => ?_, fun d hd => ?_, fun hd => ?_⟩ <;> rw [hrun] at hd
    · exact hblocked d hd
    · exact absurd hd (hwoken _)
    · rw [hrun]
      exact hexpired hd
  have hsnoc : ∀ {phase : WorkerPhase η} {d : Nat},
      (workerRun events).stepWorker = { workerRun events with phase := phase } →
      InWait phase d → WaitsUntil events d → WaitsUntil (events ++ [.worker]) d := by
    intro phase d hstep hin hwaits
    have hphase : ((workerRun events).step .worker).phase = phase := congrArg (·.phase) hstep
    refine hwaits.snoc (hphase ▸ hin) fun hpending => ⟨?_, by simp⟩
    rwa [show (workerRun events).step .worker = _ from hstep] at hpending
  cases hphase : (workerRun events).phase with
  | none =>
    have hstep : (workerRun events).stepWorker = workerRun events := by simp only [stepWorker, hphase]
    exact hout hstep (by simp [hphase]) (by simp [hphase])
  | returned =>
    have hstep : (workerRun events).stepWorker = workerRun events := by simp only [stepWorker, hphase]
    exact hout hstep (by simp [hphase]) (by simp [hphase])
  | work handler =>
    have hstep : (workerRun events).stepWorker = { workerRun events with phase := .lock } := by
      simp only [stepWorker, hphase]
    exact hout hstep (by simp) (by simp)
  | tick handler =>
    have hstep : (workerRun events).stepWorker = { workerRun events with phase := .lock } := by
      simp only [stepWorker, hphase]
    exact hout hstep (by simp) (by simp)
  | expired =>
    cases hpredicate : (workerRun events).predicate with
    | true => exact htake (by simp [stepWorker, hphase, hpredicate])
    | false =>
      have hstep : (workerRun events).stepWorker = (workerRun events).takeTick := by
        simp [stepWorker, hphase, hpredicate]
      exact hout hstep (by simp [takeTick]) (by simp [takeTick])
  | lock =>
    cases hpredicate : (workerRun events).predicate with
    | true => exact htake (by simp [stepWorker, hphase, hpredicate])
    | false =>
      refine hin (.blocked (workerRun events).deadline)
        (by simp [stepWorker, hphase, hpredicate]) (fun d hd => ?_) (by simp) (by simp)
      have hdeadline : (workerRun events).deadline = some d := by simpa using hd
      unfold deadline at hdeadline
      split at hdeadline
      · next hinterval =>
        refine ⟨events, [], rfl, hphase, hinterval, by simpa using hdeadline.symm, ?_, fun _ => by simp⟩
        intro during hduring
        have hstep : (workerRun events).step .worker =
            { workerRun events with phase := .blocked (workerRun events).deadline } := by
          simp [step, stepWorker, hphase, hpredicate]
        rw [List.prefix_nil.1 hduring, workerRun_snoc, hstep]
        exact .inl hd
      · cases hdeadline
  | woken d =>
    cases hpredicate : (workerRun events).predicate with
    | true => exact htake (by simp [stepWorker, hphase, hpredicate])
    | false =>
      have hstep : (workerRun events).stepWorker = { workerRun events with phase := .blocked d } := by
        simp [stepWorker, hphase, hpredicate]
      refine hin _ hstep (fun d' hd => hsnoc hstep (.inl hd) (h.woken d' ?_)) (by simp) (by simp)
      rw [hphase, WorkerPhase.blocked.inj hd]
  | blocked d =>
    cases d with
    | none =>
      have hstep : (workerRun events).stepWorker = workerRun events := by simp only [stepWorker, hphase]
      exact hout hstep (by simp [hphase]) (by simp [hphase])
    | some d =>
      by_cases hd : d ≤ (workerRun events).now
      · have hstep : (workerRun events).stepWorker = { workerRun events with phase := .expired } := by
          simp only [stepWorker, hphase, if_pos hd]
        exact hin _ hstep (by simp) (by simp) fun _ =>
          ⟨d, hd, hsnoc hstep (.inr (.inr rfl)) (h.blocked d hphase)⟩
      · have hstep : (workerRun events).stepWorker =
            { workerRun events with phase := .blocked (some d) } := by
          simp only [stepWorker, hphase, if_neg hd]
          rw [← hphase]
        refine hin _ hstep (fun d' hd' => hsnoc hstep (.inl hd') (h.blocked d' ?_)) (by simp) (by simp)
        rw [hphase, WorkerPhase.blocked.inj hd']

/-- The invariant holds in every run. -/
lemma tickInv : TickInv events := by
  induction events using List.reverseRecOn with
  | nil => exact ⟨nofun, nofun, nofun⟩
  | append_singleton events e ih =>
    by_cases hworker : e = .worker
    · subst hworker
      exact ih.worker
    · exact ih.other hworker

end MainThreadWorker

/-- A tick ends a wait of the worker that lasted its whole interval and in which nobody signaled: the wait
began with the interval that was set then, and the worker has been in it ever since. -/
theorem tick_quiet {η : Type} {events : List (WorkerEvent η)} {e : WorkerEvent η} {handler}
    (htick : (workerRun (events ++ [e])).log = .tick handler :: (workerRun events).log) :
    ∃ before after, events = before ++ .worker :: after ∧ (workerRun before).phase = .lock ∧
      0 < (workerRun before).tickInterval ∧ .Signal ∉ after ∧
      (∀ during, during <+: after → InWait (workerRun (before ++ .worker :: during)).phase
        ((workerRun before).now + (workerRun before).tickInterval.toNat)) ∧
      (workerRun before).now + (workerRun before).tickInterval.toNat ≤ (workerRun events).now := by
  rw [workerRun_snoc] at htick
  have hentry : (workerRun events).phase = .expired ∧ (workerRun events).workPending = false := by
    obtain hsame | ⟨x, hlog, hx⟩ := (workerRun events).step_log_cases (e := e)
    · exact absurd (hsame.symm.trans htick) (List.cons_ne_self _ _).symm
    · obtain ⟨rfl, -⟩ := List.cons_eq_cons.1 (hlog.symm.trans htick)
      obtain hsignaled | hdropped | ⟨-, -, -, hexpired⟩ := hx
      · cases hsignaled
      · cases hdropped
      · exact hexpired handler rfl
  obtain ⟨d, hd, before, after, hevents, hlock, hinterval, rfl, hduring, hquiet⟩ :=
    tickInv.expired hentry.1
  exact ⟨before, after, hevents, hlock, hinterval, hquiet hentry.2, hduring, hd⟩

/-- A tick after a quiet interval. -/
theorem tick_quiet_once :
    ∃ before after, ([.SetTickInterval 200, .Start, .owner, .worker, .elapse 200, .worker] :
        List (WorkerEvent Unit)) = before ++ .worker :: after ∧ (workerRun before).phase = .lock ∧
      0 < (workerRun before).tickInterval ∧ .Signal ∉ after ∧
      (∀ during, during <+: after → InWait (workerRun (before ++ .worker :: during)).phase
        ((workerRun before).now + (workerRun before).tickInterval.toNat)) ∧
      (workerRun before).now + (workerRun before).tickInterval.toNat ≤ 200 :=
  @tick_quiet _ _ .worker none rfl

end NextKey
