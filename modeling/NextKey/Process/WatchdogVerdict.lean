import NextKey.Process.Watchdog

/-!
# What the watchdog makes of a dead program

When no instance runs any more, the watchdog left alone exits or starts the program again. It exits just
when it has the graceful event open, signaled, and no pulse is queued in front of it; a pulse sends it
around once more, and on the way it closes the last handle, with which the flag is forgotten
(`watchdog_decides`). Nobody resets the flag, so it also stands for a quit of an earlier instance as long
as somebody has held the event since: the crash of the instance after that is taken for a quit
(`exits_iff_signalled`).
-/

namespace NextKey

namespace Processes

variable {π : Type} [DecidableEq π] {s : Processes π} {verdict : Dog}

/-- The state after `n` steps of the watchdog alone, in which it starts nothing. -/
def alone (s : Processes π) (n : Nat) : Processes π :=
  Machine.run step s (List.replicate n (.dog none))

/-- What the watchdog left alone comes to. -/
def Decides (s : Processes π) (verdict : Dog) : Prop :=
  ∃ n, (s.alone n).dog = verdict ∧ ∀ m, m < n → (s.alone m).dog.Watches

/-- The flag is set and will be read. -/
def TakesForQuit (s : Processes π) : Prop :=
  s.dog = .closeGraceful true ∨
    s.graceful.signaled = true ∧
      (s.dog = .waiting ∧ s.heartbeat.signaled = false ∨ s.dog = .timedOut ∨ s.dog = .readGraceful)

instance : Decidable s.TakesForQuit :=
  inferInstanceAs (Decidable (s.dog = .closeGraceful true ∨
    s.graceful.signaled = true ∧
      (s.dog = .waiting ∧ s.heartbeat.signaled = false ∨ s.dog = .timedOut ∨ s.dog = .readGraceful)))

/-- One more step alone. -/
lemma alone_succ {n : Nat} : s.alone (n + 1) = (s.stepDog none).alone n := by
  unfold alone
  rw [List.replicate_succ, Machine.run_cons]
  rfl

/-- The watchdog has decided. -/
lemma Decides.here (h : s.dog = verdict) : s.Decides verdict := ⟨0, h, nofun⟩

/-- It decides after a step. -/
lemma Decides.next (hdog : s.dog.Watches) (h : (s.stepDog none).Decides verdict) :
    s.Decides verdict := by
  obtain ⟨n, hn, hbefore⟩ := h
  refine ⟨n + 1, by rw [alone_succ, hn], fun m hm => ?_⟩
  cases m with
  | zero => exact hdog
  | succ m =>
    rw [alone_succ]
    exact hbefore m (by omega)

/-- There is one verdict. -/
lemma Decides.unique {other : Dog} (h : s.Decides verdict) (h' : s.Decides other)
    (hverdict : ¬verdict.Watches) (hother : ¬other.Watches) : verdict = other := by
  obtain ⟨n, hn, hbefore⟩ := h
  obtain ⟨m, hm, hbefore'⟩ := h'
  obtain hlt | rfl | hlt := Nat.lt_trichotomy n m
  · exact absurd (hn ▸ hbefore' n hlt) hverdict
  · exact hn.symm.trans hm
  · exact absurd (hm ▸ hbefore m hlt) hother

/-- No instance runs. -/
structure Dead (s : Processes π) : Prop where
  handles : s.HandleInv
  ended : s.running = ∅

omit [DecidableEq π] in
/-- No publisher is left. -/
lemma Dead.publisher (h : s.Dead) (p : π) : s.publisher p = .stopped :=
  h.handles.stopped p (by simp [h.ended])

omit [DecidableEq π] in
/-- The watchdog alone holds the flag. -/
lemma Dead.graceful (h : s.Dead) (hdog : s.dog.holdsGraceful = false) : s.graceful.holders = ∅ := by
  refine Finset.eq_empty_of_forall_notMem fun owner howner => ?_
  cases owner with
  | app p =>
    have hholds := (h.handles.graceful p).1 howner
    rw [h.publisher] at hholds
    cases hholds
  | watchdog =>
    have hholds := h.handles.dogGraceful.1 howner
    rw [hdog] at hholds
    cases hholds

/-- The watchdog starts nobody while it watches. -/
lemma Dead.stepDog (h : s.Dead) : (s.stepDog none).Dead := by
  refine ⟨h.handles.stepDog none, ?_⟩
  have hended := h.ended
  unfold Processes.stepDog
  split <;> try exact hended
  split <;> exact hended

/-- An event is missing. -/
lemma Dead.respawns_missing (h : s.Dead) {heartbeat graceful : Bool}
    (hdog : s.dog = .missing heartbeat graceful) : s.Decides .respawn := by
  have hclosed : ∀ {t : Processes π}, t.Dead → t.dog = .missing false false → t.Decides .respawn := by
    intro t ht hdog
    refine .next (by simp [hdog, Dog.Watches]) (.here ?_)
    simp [Processes.stepDog, hdog, ht.ended]
  have hgraceful : ∀ {t : Processes π}, t.Dead → t.dog = .missing false graceful →
      t.Decides .respawn := by
    intro t ht hdog
    cases graceful with
    | false => exact hclosed ht hdog
    | true =>
      refine .next (by simp [hdog, Dog.Watches]) (hclosed ht.stepDog ?_)
      simp [Processes.stepDog, hdog]
  cases heartbeat with
  | false => exact hgraceful h hdog
  | true =>
    refine .next (by simp [hdog, Dog.Watches]) (hgraceful h.stepDog ?_)
    simp [Processes.stepDog, hdog]

/-- The flag is forgotten when the watchdog comes to open it. -/
lemma Dead.respawns_openGraceful (h : s.Dead) {heartbeat : Bool}
    (hdog : s.dog = .openGraceful heartbeat) : s.Decides .respawn := by
  have hnone := h.graceful (by simp [hdog, Dog.holdsGraceful])
  have hmissing : (s.stepDog none).dog = .missing heartbeat false := by
    simp [Processes.stepDog, hdog, NamedEvent.tryOpen_of_absent _ _ hnone]
  exact .next (by simp [hdog, Dog.Watches]) (h.stepDog.respawns_missing hmissing)

/-- The heartbeat is to be opened. -/
lemma Dead.respawns_openHeartbeat (h : s.Dead) (hdog : s.dog = .openHeartbeat) :
    s.Decides .respawn := by
  have hopened : (s.stepDog none).dog = .openGraceful (s.heartbeat.tryOpen .watchdog).2 := by
    simp [Processes.stepDog, hdog]
  exact .next (by simp [hdog, Dog.Watches]) (h.stepDog.respawns_openGraceful hopened)

/-- The graceful event is dropped. -/
lemma Dead.respawns_dropGraceful (h : s.Dead) (hdog : s.dog = .dropGraceful) :
    s.Decides .respawn := by
  refine .next (by simp [hdog, Dog.Watches]) ?_
  exact h.stepDog.respawns_openHeartbeat (by simp [Processes.stepDog, hdog])

/-- A pulse has come. -/
lemma Dead.respawns_gotPulse (h : s.Dead) (hdog : s.dog = .gotPulse) : s.Decides .respawn := by
  refine .next (by simp [hdog, Dog.Watches]) ?_
  exact h.stepDog.respawns_dropGraceful (by simp [Processes.stepDog, hdog])

/-- The graceful event is closed. -/
lemma Dead.decides_closeGraceful (h : s.Dead) {gracefulState : Bool}
    (hdog : s.dog = .closeGraceful gracefulState) :
    s.Decides (if gracefulState then .exited else .respawn) := by
  cases gracefulState with
  | true =>
    refine .next (by simp [hdog, Dog.Watches]) (.here ?_)
    simp [Processes.stepDog, hdog]
  | false =>
    have hcheck : (s.stepDog none).dog = .checkAlive := by simp [Processes.stepDog, hdog]
    refine .next (by simp [hdog, Dog.Watches]) (.next (by simp [hcheck, Dog.Watches]) (.here ?_))
    rw [Processes.stepDog, hcheck]
    exact if_pos h.stepDog.ended

/-- The graceful event is read. -/
lemma Dead.decides_readGraceful (h : s.Dead) (hdog : s.dog = .readGraceful) :
    s.Decides (if s.graceful.signaled then .exited else .respawn) := by
  refine .next (by simp [hdog, Dog.Watches]) ?_
  exact h.stepDog.decides_closeGraceful (by simp [Processes.stepDog, hdog])

/-- No pulse has come. -/
lemma Dead.decides_timedOut (h : s.Dead) (hdog : s.dog = .timedOut) :
    s.Decides (if s.graceful.signaled then .exited else .respawn) := by
  have hread : (s.stepDog none).dog = .readGraceful := by simp [Processes.stepDog, hdog]
  have hflag : (s.stepDog none).graceful = s.graceful := by simp [Processes.stepDog, hdog]
  refine .next (by simp [hdog, Dog.Watches]) ?_
  rw [← hflag]
  exact h.stepDog.decides_readGraceful hread

/-- The watchdog waits for a pulse. -/
lemma Dead.decides_waiting (h : s.Dead) (hdog : s.dog = .waiting) :
    s.Decides (if s.heartbeat.signaled = false ∧ s.graceful.signaled then .exited else .respawn) := by
  refine .next (by simp [hdog, Dog.Watches]) ?_
  cases hpulse : s.heartbeat.signaled with
  | true =>
    rw [if_neg (by simp)]
    exact h.stepDog.respawns_gotPulse (by simp [Processes.stepDog, hdog, hpulse])
  | false =>
    have hflag : (s.stepDog none).graceful = s.graceful := by simp [Processes.stepDog, hdog, hpulse]
    have htimed := h.stepDog.decides_timedOut (by simp [Processes.stepDog, hdog, hpulse])
    rw [hflag] at htimed
    simpa using htimed

/-- A dead program is taken for one that was quit. -/
lemma Dead.exits (h : s.Dead) (hquit : s.TakesForQuit) : s.Decides .exited := by
  obtain hdog | ⟨hflag, ⟨hdog, hpulse⟩ | hdog | hdog⟩ := hquit
  · exact h.decides_closeGraceful hdog
  · simpa [hflag, hpulse] using h.decides_waiting hdog
  · simpa [hflag] using h.decides_timedOut hdog
  · simpa [hflag] using h.decides_readGraceful hdog

/-- A dead program is started again. -/
lemma Dead.respawns (h : s.Dead) (hwatches : s.dog.Watches) (hnot : ¬s.TakesForQuit) :
    s.Decides .respawn := by
  unfold TakesForQuit at hnot
  cases hdog : s.dog with
  | off =>
    rw [hdog] at hwatches
    exact hwatches.elim
  | respawn =>
    rw [hdog] at hwatches
    exact hwatches.elim
  | exited =>
    rw [hdog] at hwatches
    exact hwatches.elim
  | sleeping =>
    exact .next hwatches (h.stepDog.respawns_openHeartbeat (by simp [Processes.stepDog, hdog]))
  | openHeartbeat => exact h.respawns_openHeartbeat hdog
  | openGraceful heartbeat => exact h.respawns_openGraceful hdog
  | missing heartbeat graceful => exact h.respawns_missing hdog
  | gotPulse => exact h.respawns_gotPulse hdog
  | dropGraceful => exact h.respawns_dropGraceful hdog
  | checkAlive =>
    refine .next hwatches (.here ?_)
    rw [Processes.stepDog, hdog]
    exact if_pos h.ended
  | waiting =>
    have hdecides := h.decides_waiting hdog
    rwa [if_neg fun hboth => hnot (.inr ⟨hboth.2, .inl ⟨hdog, hboth.1⟩⟩)] at hdecides
  | timedOut =>
    have hdecides := h.decides_timedOut hdog
    rwa [if_neg fun hflag => hnot (.inr ⟨hflag, .inr (.inl hdog)⟩)] at hdecides
  | readGraceful =>
    have hdecides := h.decides_readGraceful hdog
    rwa [if_neg fun hflag => hnot (.inr ⟨hflag, .inr (.inr hdog)⟩)] at hdecides
  | closeGraceful gracefulState =>
    cases gracefulState with
    | true => exact absurd (.inl hdog) hnot
    | false => exact h.decides_closeGraceful hdog

end Processes

open Processes

/-- Once no instance runs, a watchdog left alone exits when the flag is set and it is about to read it, and
starts the program again in every other case. -/
theorem watchdog_decides {π : Type} [DecidableEq π] {events : List (ProcessEvent π)}
    (hdead : (processRun events).running = ∅) (hwatches : (processRun events).dog.Watches) :
    ((processRun events).Decides .exited ↔ (processRun events).TakesForQuit) ∧
      ((processRun events).Decides .respawn ↔ ¬(processRun events).TakesForQuit) := by
  have h : (processRun events).Dead := ⟨handleInv, hdead⟩
  by_cases hquit : (processRun events).TakesForQuit
  · have hexits := h.exits hquit
    refine ⟨iff_of_true hexits hquit, iff_of_false (fun hrespawns => ?_) (not_not.2 hquit)⟩
    exact absurd (hexits.unique hrespawns id id) nofun
  · have hrespawns := h.respawns hwatches hquit
    refine ⟨iff_of_false (fun hexits => ?_) hquit, iff_of_true hrespawns hquit⟩
    exact absurd (hexits.unique hrespawns id id) nofun

/-- An instance publishes, and the watchdog waits for its heartbeat. -/
def watched : List (ProcessEvent Bool) :=
  [.start false, .createHeartbeat false, .createGraceful false, .LaunchWatchdogProcess, .dog none,
    .dog none, .dog none]

/-- The user quits while the watchdog waits: with no pulse queued it exits, with one it does not. -/
theorem watchdog_decides_quit :
    (processRun (watched ++ [.SignalGracefulShutdown false, .ends false])).Decides .exited ∧
      (processRun (watched ++ [.pulse false, .SignalGracefulShutdown false, .ends false])).Decides
        .respawn :=
  ⟨(watchdog_decides (by decide) (by decide)).1.2 (by decide),
    (watchdog_decides (by decide) (by decide)).2.2 (by decide)⟩

namespace Processes

variable {π : Type} [DecidableEq π] {s : Processes π}

/-- An instance says that the user quits. -/
def Signals (s : Processes π) (e : ProcessEvent π) : Prop :=
  ∃ p, e = .SignalGracefulShutdown p ∧ s.publisher p = .publishing

/-- The flag comes from a signal and goes with the last handle. -/
lemma HandleInv.signaled_step (h : s.HandleInv) {e : ProcessEvent π} :
    (s.step e).graceful.signaled = true ↔
      (s.graceful.signaled = true ∨ s.Signals e) ∧ (s.step e).graceful.holders ≠ ∅ := by
  have hheld := s.graceful.held
  -- a step that leaves the event as it is, or closes a handle to it
  have hsame : ∀ {g : NamedEvent (Owner π)}, ¬s.Signals e → g.signaled = s.graceful.signaled →
      (g.signaled = true ↔ (s.graceful.signaled = true ∨ s.Signals e) ∧ g.holders ≠ ∅) := by
    intro g hnot hg
    rw [or_iff_left hnot, ← hg]
    exact ⟨fun hsignaled => ⟨hsignaled, g.held hsignaled⟩, And.left⟩
  have hclose : ∀ {owner : Owner π}, ¬s.Signals e →
      ((s.graceful.close owner).signaled = true ↔
        (s.graceful.signaled = true ∨ s.Signals e) ∧ (s.graceful.close owner).holders ≠ ∅) := by
    intro owner hnot
    rw [or_iff_left hnot]
    simp
  cases e with
  | SignalGracefulShutdown p =>
    simp only [Processes.step]
    split
    · next hp =>
      have hmem : .app p ∈ s.graceful.holders := by
        rw [h.graceful, hp]
        rfl
      refine iff_of_true ?_ ⟨.inr ⟨p, rfl, hp⟩, ?_⟩
      · simp [NamedEvent.set_signaled, hmem]
      · simpa using Finset.ne_empty_of_mem hmem
    · next hp =>
      have hnot : ¬s.Signals (.SignalGracefulShutdown p) := by
        rintro ⟨q, hq, hpublishing⟩
        cases hq
        exact hp hpublishing
      exact hsame hnot rfl
  | ends p => exact hclose (by simp [Signals])
  | KillWatchdogProcess => exact hclose (by simp [Signals])
  | closeGraceful p =>
    simp only [Processes.step]
    split
    · exact hclose (by simp [Signals])
    · exact hsame (by simp [Signals]) rfl
  | dog spawned =>
    have hnot : ¬s.Signals (.dog spawned) := by simp [Signals]
    simp only [Processes.step, Processes.stepDog]
    split
    all_goals first
      | exact hclose hnot
      | exact hsame hnot rfl
      | exact hsame hnot (NamedEvent.tryOpen_signaled _ _)
      | split <;> exact hsame hnot rfl
  | start p => exact hsame (by simp [Signals]) rfl
  | createGraceful p =>
    simp only [Processes.step]
    split <;> exact hsame (by simp [Signals]) rfl
  | createHeartbeat p =>
    simp only [Processes.step]
    split <;> exact hsame (by simp [Signals]) rfl
  | createFails p =>
    simp only [Processes.step]
    split <;> exact hsame (by simp [Signals]) rfl
  | pulse p =>
    simp only [Processes.step]
    split <;> exact hsame (by simp [Signals]) rfl
  | closeHeartbeat p =>
    simp only [Processes.step]
    split <;> exact hsame (by simp [Signals]) rfl
  | LaunchWatchdogProcess =>
    simp only [Processes.step]
    split <;> exact hsame (by simp [Signals]) rfl

end Processes

/-- When no instance runs and the watchdog waits with no pulse queued, it exits just when some instance,
whichever it was, said that the user quits and the event has been held by somebody ever since. -/
theorem exits_iff_signalled {π : Type} [DecidableEq π] {events : List (ProcessEvent π)}
    (hdead : (processRun events).running = ∅) (hwaiting : (processRun events).dog = .waiting)
    (hpulse : (processRun events).heartbeat.signaled = false) :
    (processRun events).Decides .exited ↔
      ∃ before p after, events = before ++ .SignalGracefulShutdown p :: after ∧
        (processRun before).publisher p = .publishing ∧
        ∀ js, js <+: after →
          (processRun (before ++ .SignalGracefulShutdown p :: js)).graceful.holders ≠ ∅ := by
  have h : (processRun events).Dead := ⟨handleInv, hdead⟩
  have hflag : (processRun events).Decides .exited ↔ (processRun events).graceful.signaled = true := by
    have hdecides : (processRun events).Decides
        (if (processRun events).graceful.signaled then .exited else .respawn) := by
      simpa [hpulse] using h.decides_waiting hwaiting
    constructor
    · intro hexits
      by_contra hnot
      rw [if_neg hnot] at hdecides
      exact absurd (hexits.unique hdecides id id) nofun
    · intro hsignaled
      rwa [if_pos hsignaled] at hdecides
  have hlatch := @Machine.latch_run _ _ (step : Processes π → ProcessEvent π → Processes π) HandleInv
    (fun s => s.graceful.signaled = true) (fun s => s.graceful.holders ≠ ∅) Signals
    (fun h => h.step _) (fun h => h.signaled_step) init events HandleInv.start
  have hinit : ¬(init : Processes π).graceful.signaled = true := nofun
  rw [hflag, show (processRun events).graceful.signaled = true ↔ _ from hlatch,
    or_iff_right fun h => hinit h.1]
  constructor
  · rintro ⟨before, e, after, hevents, ⟨p, rfl, hp⟩, hheld⟩
    exact ⟨before, p, after, hevents, hp, hheld⟩
  · rintro ⟨before, p, after, hevents, hp, hheld⟩
    exact ⟨before, _, after, hevents, ⟨p, rfl, hp⟩, hheld⟩

/-- An instance that is quit and started anew before the watchdog has noticed, and then crashes. -/
def restarted : List (ProcessEvent Bool) :=
  [.start true, .createHeartbeat true, .createGraceful true, .ends false, .pulse true, .dog none,
    .dog none, .dog none, .dog none, .dog none, .ends true]

/-- The watchdog takes the crash for a quit. -/
theorem exits_iff_signalled_restarted :
    (processRun (watched ++ .SignalGracefulShutdown false :: restarted)).Decides .exited := by
  refine (exits_iff_signalled (by decide) (by decide) (by decide)).2
    ⟨watched, false, restarted, rfl, by decide, fun js hjs => ?_⟩
  have hheld : ∀ js ∈ restarted.inits,
      (processRun (watched ++ .SignalGracefulShutdown false :: js)).graceful.holders ≠ ∅ := by decide
  exact hheld js ((List.mem_inits js restarted).2 hjs)

end NextKey
