import NextKey.Hook.WorkerHandlers

/-!
# When the worker is parked

After two minutes without a key the worker is parked: its tick interval is 0, and it sleeps until
somebody signals. The next key signals it. That look and the store of the new cadence are apart, though,
and a key in between neither is seen by the worker nor sees that it has to signal: the worker is parked
only on a look at two idle minutes, and no key is newer than that but those that came between the look
and the store (`parked_cases`). With one of them it is parked in the middle of typing, until the next
key (`parked_typing`).
-/

namespace NextKey

/-- The handler has looked at the time of the last key and not yet published the cadence. -/
def HandlerPhase.HasLooked : HandlerPhase → Prop
  | .readHijacker _ | .compare _ | .publish _ => True
  | _ => False

/-- The handler has the look before it. -/
def HandlerPhase.WillLook : HandlerPhase → Prop
  | .sync | .drain | .readClock | .readActivity _ => True
  | _ => False

/-- The worker is in a handler. -/
def WorkerPhase.InHandler {η : Type} : WorkerPhase η → Prop
  | .work _ | .tick _ => True
  | _ => False

/-- The worker waits with an end, or has waited. -/
def WorkerPhase.Timed {η : Type} : WorkerPhase η → Prop
  | .blocked (some _) | .woken (some _) | .expired => True
  | _ => False

/-- The worker waits without an end. -/
def WorkerPhase.Untimed {η : Type} : WorkerPhase η → Prop
  | .blocked .none | .woken .none => True
  | _ => False

/-- The other threads send nobody into a wait. -/
lemma MainThreadWorker.waits_other {η : Type} {s : MainThreadWorker η} {e : WorkerEvent η}
    (h : s.WorkerInv) (hworker : e ≠ .worker) :
    ((s.step e).phase.Timed → s.phase.Timed) ∧ ((s.step e).phase.Untimed → s.phase.Untimed) := by
  have hwake : ((wake s.phase).Timed → s.phase.Timed) ∧ ((wake s.phase).Untimed → s.phase.Untimed) := by
    cases s.phase with
    | blocked d => cases d <;> exact ⟨id, id⟩
    | _ => exact ⟨id, id⟩
  obtain hlock | hnone | ⟨hsame | hwoken, -⟩ := keeps_other h hworker
  · rw [hlock]
    exact ⟨False.elim, False.elim⟩
  · rw [hnone]
    exact ⟨False.elim, False.elim⟩
  · rw [hsame]
    exact ⟨id, id⟩
  · rw [hwoken]
    exact hwake

/-- The other threads leave a worker alone that is in a handler. -/
lemma MainThreadWorker.phase_of_inHandler {η : Type} {s : MainThreadWorker η} {e : WorkerEvent η}
    (h : s.WorkerInv) (hphase : s.phase.InHandler) (hworker : e ≠ .worker) :
    (s.step e).phase = s.phase := by
  have hwake : wake s.phase = s.phase := by
    cases hs : s.phase with
    | blocked d =>
      rw [hs] at hphase
      exact hphase.elim
    | _ => rfl
  cases e with
  | worker => exact absurd rfl hworker
  | owner =>
    simp only [step, stepOwner]
    cases howner : s.owner with
    | spawn =>
      rw [(h.spawning howner).1] at hphase
      exact hphase.elim
    | notify => exact hwake
    | join =>
      dsimp only
      split
      · next hs =>
        rw [hs] at hphase
        exact hphase.elim
      · next hs =>
        rw [hs] at hphase
        exact hphase.elim
      · rfl
    | _ => rfl
  | Start =>
    simp only [step]
    cases s.owner with
    | idle =>
      dsimp only
      split <;> rfl
    | _ => rfl
  | Stop =>
    simp only [step]
    cases s.owner with
    | idle =>
      dsimp only
      split <;> rfl
    | _ => rfl
  | notify =>
    simp only [step]
    split
    · rfl
    · exact hwake
  | spurious => exact hwake
  | _ => rfl

namespace HookWorker

variable {π : Type} [DecidableEq π] {now : Nat} {events : List (HandlerEvent π)} {e : HandlerEvent π}

/-- The worker is between a look at two idle minutes and the store of the cadence. -/
def LookedIdle (now : Nat) (events : List (HandlerEvent π)) : Prop :=
  ∃ before during t, events = before ++ .handler :: during ∧
    (hookWorkerRun now before).handler = .readActivity t ∧
    kIdleStopThreshMs ≤ t - (hookWorkerRun now before).lastActivityTickMs ∧
    ∀ js, js <+: during → (hookWorkerRun now (before ++ .handler :: js)).handler.HasLooked

/-- Since such a look and store there was no key. -/
def ParkedSince (now : Nat) (events : List (HandlerEvent π)) : Prop :=
  ∃ looked after, events = looked ++ after ∧ LookedIdle now looked ∧
    (hookWorkerRun now events).lastActivityTickMs = (hookWorkerRun now looked).lastActivityTickMs

/-- The last step of a run. -/
lemma hookWorkerRun_snoc :
    hookWorkerRun now (events ++ [e]) = (hookWorkerRun now events).step e := by
  rw [hookWorkerRun, Machine.run_append, ← hookWorkerRun]
  rfl

/-- The look is still before the store. -/
lemma LookedIdle.snoc (h : LookedIdle now events)
    (hlooked : ((hookWorkerRun now events).step e).handler.HasLooked) :
    LookedIdle now (events ++ [e]) := by
  obtain ⟨before, during, t, rfl, hread, hidle, hduring⟩ := h
  refine ⟨before, during ++ [e], t, by simp, hread, hidle, fun js hjs => ?_⟩
  obtain hjs | hjs := List.prefix_concat_iff.1 hjs
  · rw [hjs, show before ++ .handler :: (during ++ [e]) = before ++ .handler :: during ++ [e] by simp,
      hookWorkerRun_snoc]
    exact hlooked
  · exact hduring js hjs

/-- No key has come since. -/
lemma ParkedSince.snoc (h : ParkedSince now events)
    (hsame : ((hookWorkerRun now events).step e).lastActivityTickMs =
      (hookWorkerRun now events).lastActivityTickMs) : ParkedSince now (events ++ [e]) := by
  obtain ⟨looked, after, rfl, hlooked, hlast⟩ := h
  refine ⟨looked, after ++ [e], by simp, hlooked, ?_⟩
  rw [hookWorkerRun_snoc, hsame, hlast]

/-- The handler that has just looked is parked on that look. -/
lemma LookedIdle.parked (h : LookedIdle now events) : ParkedSince now events :=
  ⟨events, [], by simp, h, rfl⟩

/-- Why the cadence can be to park. -/
def Explained (now : Nat) (events : List (HandlerEvent π)) (s : HookWorker π) : Prop :=
  s.activity = .load ∨ s.activity = .signal ∨ unanswered s.worker.log = true ∨
    .dropped ∈ s.worker.log ∨ s.handler.WillLook ∨ s.handler.HasLooked ∨ ParkedSince now events

/-- The invariant of the cadence. -/
structure CadenceInv (now : Nat) (events : List (HandlerEvent π)) (s : HookWorker π) : Prop where
  worker : s.worker.WorkerInv
  busy : s.handler ≠ .idle → s.worker.phase.InHandler
  coupled : (∀ d, s.handler ≠ .setInterval d) → s.worker.tickInterval = s.currentTickIntervalMs
  setting : ∀ d, s.handler = .setInterval d → s.currentTickIntervalMs = d
  sawIdle : ∀ idleMs, s.handler = .readHijacker idleMs → kIdleStopThreshMs ≤ idleMs →
    LookedIdle now events
  parking : s.handler = .compare 0 ∨ s.handler = .publish 0 → LookedIdle now events
  polling : s.handler.polls = true → s.currentTickIntervalMs ≠ 0
  timed : s.worker.phase.Timed → s.currentTickIntervalMs ≠ 0
  untimed : s.worker.phase.Untimed → s.currentTickIntervalMs = 0
  explained : s.currentTickIntervalMs = 0 → Explained now events s

/-- What explains a parked cadence stays, as long as keys do and the worker starts no work handler. -/
lemma Explained.mono {s t : HookWorker π} (h : Explained now events s)
    (hactivity : s.activity = .load ∨ s.activity = .signal →
      t.activity = .load ∨ t.activity = .signal ∨ unanswered t.worker.log = true)
    (hlog : t.worker.log = s.worker.log ∨
      ∃ x, t.worker.log = x :: s.worker.log ∧ ∀ handler, x ≠ .work handler)
    (hhandler : s.handler.WillLook ∨ s.handler.HasLooked →
      t.handler.WillLook ∨ t.handler.HasLooked ∨ ParkedSince now (events ++ [e]))
    (hparked : ParkedSince now events →
      t.activity = .load ∨ ParkedSince now (events ++ [e])) : Explained now (events ++ [e]) t := by
  have hsignal : t.activity = .load ∨ t.activity = .signal ∨ unanswered t.worker.log = true →
      Explained now (events ++ [e]) t := by
    rintro (h | h | h)
    · exact .inl h
    · exact .inr (.inl h)
    · exact .inr (.inr (.inl h))
  have hlook : t.handler.WillLook ∨ t.handler.HasLooked ∨ ParkedSince now (events ++ [e]) →
      Explained now (events ++ [e]) t := fun h => .inr (.inr (.inr (.inr h)))
  obtain h | h | hunanswered | hdropped | h | h | h := h
  · exact hsignal (hactivity (.inl h))
  · exact hsignal (hactivity (.inr h))
  · obtain hsame | ⟨x, hx, hne⟩ := hlog
    · exact .inr (.inr (.inl (by rwa [hsame])))
    · cases x with
      | signaled => exact .inr (.inr (.inl (by rw [hx]; rfl)))
      | tick handler => exact .inr (.inr (.inl (by rw [hx]; exact hunanswered)))
      | work handler => exact absurd rfl (hne handler)
      | dropped => exact .inr (.inr (.inr (.inl (by rw [hx]; exact List.mem_cons_self))))
  · refine .inr (.inr (.inr (.inl ?_)))
    obtain hsame | ⟨x, hx, -⟩ := hlog
    · rwa [hsame]
    · rw [hx]
      exact List.mem_cons_of_mem x hdropped
  · exact hlook (hhandler (.inl h))
  · exact hlook (hhandler (.inr h))
  · exact (hparked h).elim .inl fun h => hlook (.inr (.inr h))

/-- A step in which neither the worker nor its handler moves and the cadence stays. -/
lemma CadenceInv.thread (h : CadenceInv now events (hookWorkerRun now events)) (e' : WorkerEvent Unit)
    (he : e' ≠ .worker)
    (hworker : ((hookWorkerRun now events).step e).worker = (hookWorkerRun now events).worker.step e')
    (hinterval : ((hookWorkerRun now events).worker.step e').tickInterval =
      (hookWorkerRun now events).worker.tickInterval)
    (hhandler : ((hookWorkerRun now events).step e).handler = (hookWorkerRun now events).handler)
    (hcurrent : ((hookWorkerRun now events).step e).currentTickIntervalMs =
      (hookWorkerRun now events).currentTickIntervalMs)
    (hexplained : (hookWorkerRun now events).currentTickIntervalMs = 0 →
      Explained now events (hookWorkerRun now events) →
      Explained now (events ++ [e]) ((hookWorkerRun now events).step e)) :
    CadenceInv now (events ++ [e]) ((hookWorkerRun now events).step e) := by
  refine ⟨?_, fun hbusy => ?_, fun hset => ?_, fun d hd => ?_, fun idleMs hread hidle => ?_,
    fun hparking => ?_, fun hpoll => ?_, fun htimed => ?_, fun huntimed => ?_, fun hzero => ?_⟩
  · rw [hworker]
    exact h.worker.step
  · rw [hhandler] at hbusy
    rw [hworker, MainThreadWorker.phase_of_inHandler h.worker (h.busy hbusy) he]
    exact h.busy hbusy
  · rw [hhandler] at hset
    rw [hworker, hinterval, hcurrent]
    exact h.coupled hset
  · rw [hhandler] at hd
    rw [hcurrent]
    exact h.setting d hd
  · rw [hhandler] at hread
    refine (h.sawIdle idleMs hread hidle).snoc ?_
    rw [hhandler, hread]
    trivial
  · rw [hhandler] at hparking
    refine (h.parking hparking).snoc ?_
    rw [hhandler]
    obtain hc | hc := hparking <;> rw [hc] <;> trivial
  · rw [hhandler] at hpoll
    rw [hcurrent]
    exact h.polling hpoll
  · rw [hworker] at htimed
    rw [hcurrent]
    exact h.timed ((MainThreadWorker.waits_other h.worker he).1 htimed)
  · rw [hworker] at huntimed
    rw [hcurrent]
    exact h.untimed ((MainThreadWorker.waits_other h.worker he).2 huntimed)
  · rw [hcurrent] at hzero
    exact hexplained hzero (h.explained hzero)

/-- A step that touches nothing but what the cadence is explained by. -/
lemma CadenceInv.frame (h : CadenceInv now events (hookWorkerRun now events))
    (hworker : ((hookWorkerRun now events).step e).worker = (hookWorkerRun now events).worker)
    (hhandler : ((hookWorkerRun now events).step e).handler = (hookWorkerRun now events).handler)
    (hcurrent : ((hookWorkerRun now events).step e).currentTickIntervalMs =
      (hookWorkerRun now events).currentTickIntervalMs)
    (hexplained : (hookWorkerRun now events).currentTickIntervalMs = 0 →
      Explained now events (hookWorkerRun now events) →
      Explained now (events ++ [e]) ((hookWorkerRun now events).step e)) :
    CadenceInv now (events ++ [e]) ((hookWorkerRun now events).step e) :=
  h.thread (.elapse 0) nofun hworker rfl hhandler hcurrent hexplained

/-- A step that does nothing. -/
lemma CadenceInv.same (h : CadenceInv now events (hookWorkerRun now events))
    (hsame : (hookWorkerRun now events).step e = hookWorkerRun now events) :
    CadenceInv now (events ++ [e]) ((hookWorkerRun now events).step e) := by
  refine h.frame (by rw [hsame]) (by rw [hsame]) (by rw [hsame]) fun _ hexplained => ?_
  refine hexplained.mono ?_ (.inl (by rw [hsame])) ?_ fun hparked => .inr (hparked.snoc (by rw [hsame]))
  · rw [hsame]
    exact fun hactivity => hactivity.elim .inl fun hactivity => .inr (.inl hactivity)
  · rw [hsame]
    exact fun hhandler => hhandler.imp_right .inl

/-- The other threads in the worker. -/
lemma CadenceInv.outside (h : CadenceInv now events (hookWorkerRun now events)) (e' : WorkerEvent Unit)
    (he : e' ≠ .worker)
    (hstep : (hookWorkerRun now events).step e =
      { hookWorkerRun now events with worker := (hookWorkerRun now events).worker.step e' })
    (hinterval : ((hookWorkerRun now events).worker.step e').tickInterval =
      (hookWorkerRun now events).worker.tickInterval) :
    CadenceInv now (events ++ [e]) ((hookWorkerRun now events).step e) := by
  refine h.thread e' he (by rw [hstep]) hinterval (by rw [hstep]) (by rw [hstep]) fun _ hexplained => ?_
  refine hexplained.mono ?_ ?_ ?_ fun hparked => .inr (hparked.snoc (by rw [hstep]))
  · rw [hstep]
    exact fun hactivity => hactivity.elim .inl fun hactivity => .inr (.inl hactivity)
  · rw [hstep]
    obtain hsame | ⟨x, hx, hkind⟩ := (hookWorkerRun now events).worker.step_log_cases (e := e')
    · exact .inl hsame
    · refine .inr ⟨x, hx, fun handler hwork => ?_⟩
      obtain rfl | rfl | ⟨hworker, -⟩ := hkind
      · cases hwork
      · cases hwork
      · exact he hworker
  · rw [hstep]
    exact fun hhandler => hhandler.imp_right .inl

/-- A handler that starts runs in the worker. -/
lemma entry_inHandler {phase : WorkerPhase Unit} (h : phase.entry ≠ .idle) : phase.InHandler := by
  cases phase <;> first | exact absurd rfl h | trivial

/-- The work handler starts, the poll or none. -/
lemma entry_cases (phase : WorkerPhase Unit) :
    phase.entry = .idle ∨ phase.entry = .sync ∨ phase.entry = .poll := by
  cases phase <;> simp [WorkerPhase.entry]

/-- What is to be shown for a step of the worker. -/
lemma CadenceInv.goes {w : MainThreadWorker Unit}
    (h : CadenceInv now events (hookWorkerRun now events))
    (hidle : (hookWorkerRun now events).handler = .idle)
    (hw : (hookWorkerRun now events).worker.step .worker = w)
    (hinterval : w.tickInterval = (hookWorkerRun now events).worker.tickInterval)
    (htimed : w.phase.Timed ∨ w.phase.entry.polls = true →
      (hookWorkerRun now events).currentTickIntervalMs ≠ 0)
    (huntimed : w.phase.Untimed → (hookWorkerRun now events).currentTickIntervalMs = 0)
    (hlog : w.phase.entry = .sync ∨ w.log = (hookWorkerRun now events).worker.log ∨
      ∃ x, w.log = x :: (hookWorkerRun now events).worker.log ∧ ∀ handler, x ≠ .work handler) :
    CadenceInv now (events ++ [.worker]) ((hookWorkerRun now events).step .worker) := by
  have hstep : (hookWorkerRun now events).step .worker =
      { hookWorkerRun now events with worker := w, handler := w.phase.entry } := by
    simp only [step, stepWorker, hidle, hw]
  have hentry := entry_cases w.phase
  rw [hstep]
  refine ⟨?_, entry_inHandler, fun hset => ?_, fun d hd => ?_, fun idleMs hread hidle => ?_,
    fun hparking => ?_, fun hpoll => htimed (.inr hpoll), fun ht => htimed (.inl ht), huntimed,
    fun hzero => ?_⟩
  · rw [← hw]
    exact h.worker.step (e := .worker)
  · exact hinterval.trans (h.coupled (by simp [hidle]))
  · obtain he | he | he := hentry <;> cases he.symm.trans hd
  · obtain he | he | he := hentry <;> cases he.symm.trans hread
  · obtain he | he | he := hentry <;> rcases hparking with hd | hd <;> cases he.symm.trans hd
  · obtain hsync | hlog := hlog
    · refine .inr (.inr (.inr (.inr (.inl ?_))))
      rw [hsync]
      trivial
    · refine (h.explained hzero).mono ?_ hlog ?_ fun hparked => .inr (hparked.snoc (by rw [hstep]))
      · exact fun hactivity => hactivity.elim .inl fun hactivity => .inr (.inl hactivity)
      · rw [hidle]
        exact fun hnot => hnot.elim False.elim False.elim

/-- The worker goes on in `Run`. -/
lemma CadenceInv.stepWorker (h : CadenceInv now events (hookWorkerRun now events)) :
    CadenceInv now (events ++ [.worker]) ((hookWorkerRun now events).step .worker) := by
  by_cases hidle : (hookWorkerRun now events).handler = .idle
  · have hcoupled := h.coupled (by simp [hidle])
    have htake : (hookWorkerRun now events).worker.step .worker =
        (hookWorkerRun now events).worker.takeWork →
        CadenceInv now (events ++ [.worker]) ((hookWorkerRun now events).step .worker) := by
      intro hstep
      unfold MainThreadWorker.takeWork at hstep
      split at hstep
      · exact h.goes hidle hstep rfl (by simp [WorkerPhase.Timed, WorkerPhase.entry])
          (by simp [WorkerPhase.Untimed]) (.inr (.inl rfl))
      · exact h.goes hidle hstep rfl (by simp [WorkerPhase.Timed, WorkerPhase.entry])
          (by simp [WorkerPhase.Untimed]) (.inl rfl)
    have hmove : ∀ phase : WorkerPhase Unit, (hookWorkerRun now events).worker.step .worker =
          { (hookWorkerRun now events).worker with phase := phase } → phase.entry = .idle →
        (phase.Timed → (hookWorkerRun now events).currentTickIntervalMs ≠ 0) →
        (phase.Untimed → (hookWorkerRun now events).currentTickIntervalMs = 0) →
        CadenceInv now (events ++ [.worker]) ((hookWorkerRun now events).step .worker) := by
      intro phase hstep hentry htimed huntimed
      refine h.goes hidle hstep rfl ?_ huntimed (.inr (.inl rfl))
      rintro (ht | hpoll)
      · exact htimed ht
      · rw [hentry] at hpoll
        cases hpoll
    have htimed := h.timed
    have huntimed := h.untimed
    cases hphase : (hookWorkerRun now events).worker.phase with
    | none =>
      refine hmove .none ?_ rfl False.elim False.elim
      simp only [MainThreadWorker.step, MainThreadWorker.stepWorker, hphase]
      rw [← hphase]
    | returned =>
      refine hmove .returned ?_ rfl False.elim False.elim
      simp only [MainThreadWorker.step, MainThreadWorker.stepWorker, hphase]
      rw [← hphase]
    | work handler =>
      refine hmove .lock ?_ rfl False.elim False.elim
      simp only [MainThreadWorker.step, MainThreadWorker.stepWorker, hphase]
    | tick handler =>
      refine hmove .lock ?_ rfl False.elim False.elim
      simp only [MainThreadWorker.step, MainThreadWorker.stepWorker, hphase]
    | lock =>
      cases hpredicate : (hookWorkerRun now events).worker.predicate with
      | true =>
        exact htake (by simp [MainThreadWorker.step, MainThreadWorker.stepWorker, hphase, hpredicate])
      | false =>
        refine hmove (.blocked (hookWorkerRun now events).worker.deadline) ?_ rfl ?_ ?_
        · simp [MainThreadWorker.step, MainThreadWorker.stepWorker, hphase, hpredicate]
        · unfold MainThreadWorker.deadline
          split
          · next hpos =>
            rw [hcoupled] at hpos
            exact fun _ => by omega
          · exact False.elim
        · unfold MainThreadWorker.deadline
          split
          · exact False.elim
          · next hpos =>
            rw [hcoupled] at hpos
            exact fun _ => by omega
    | woken d =>
      rw [hphase] at htimed huntimed
      cases hpredicate : (hookWorkerRun now events).worker.predicate with
      | true =>
        exact htake (by simp [MainThreadWorker.step, MainThreadWorker.stepWorker, hphase, hpredicate])
      | false =>
        refine hmove (.blocked d) ?_ rfl ?_ ?_
        · simp [MainThreadWorker.step, MainThreadWorker.stepWorker, hphase, hpredicate]
        · cases d with
          | none => exact False.elim
          | some d => exact htimed
        · cases d with
          | none => exact huntimed
          | some d => exact False.elim
    | expired =>
      rw [hphase] at htimed
      cases hpredicate : (hookWorkerRun now events).worker.predicate with
      | true =>
        exact htake (by simp [MainThreadWorker.step, MainThreadWorker.stepWorker, hphase, hpredicate])
      | false =>
        have hstep : (hookWorkerRun now events).worker.step .worker =
            (hookWorkerRun now events).worker.takeTick := by
          simp [MainThreadWorker.step, MainThreadWorker.stepWorker, hphase, hpredicate]
        exact h.goes hidle hstep rfl (fun _ => htimed trivial) False.elim (.inr (.inr ⟨_, rfl, by simp⟩))
    | blocked d =>
      rw [hphase] at htimed huntimed
      cases d with
      | none =>
        refine hmove (.blocked none) ?_ rfl False.elim huntimed
        simp only [MainThreadWorker.step, MainThreadWorker.stepWorker, hphase]
        rw [← hphase]
      | some d =>
        by_cases hd : d ≤ (hookWorkerRun now events).worker.now
        · refine hmove .expired ?_ rfl htimed False.elim
          simp only [MainThreadWorker.step, MainThreadWorker.stepWorker, hphase, if_pos hd]
        · refine hmove (.blocked (some d)) ?_ rfl htimed False.elim
          simp only [MainThreadWorker.step, MainThreadWorker.stepWorker, hphase, if_neg hd]
          rw [← hphase]
  · refine h.same ?_
    simp only [HookWorker.step, HookWorker.stepWorker]

/-- A handler goes on, with the worker as it is. -/
lemma CadenceInv.moves (h : CadenceInv now events (hookWorkerRun now events))
    (hbusy : (hookWorkerRun now events).handler ≠ .idle)
    (hworker : ((hookWorkerRun now events).step e).worker = (hookWorkerRun now events).worker)
    (hcoupled : (∀ d, ((hookWorkerRun now events).step e).handler ≠ .setInterval d) →
      (∀ d, (hookWorkerRun now events).handler ≠ .setInterval d) ∧
        ((hookWorkerRun now events).step e).currentTickIntervalMs =
          (hookWorkerRun now events).currentTickIntervalMs)
    (hsetting : ∀ d, ((hookWorkerRun now events).step e).handler = .setInterval d →
      ((hookWorkerRun now events).step e).currentTickIntervalMs = d)
    (hlooked : (∃ idleMs, ((hookWorkerRun now events).step e).handler = .readHijacker idleMs ∧
        kIdleStopThreshMs ≤ idleMs) ∨ ((hookWorkerRun now events).step e).handler = .compare 0 ∨
        ((hookWorkerRun now events).step e).handler = .publish 0 → LookedIdle now (events ++ [e]))
    (hpolling : ((hookWorkerRun now events).step e).handler.polls = true →
      ((hookWorkerRun now events).step e).currentTickIntervalMs ≠ 0)
    (hexplained : ((hookWorkerRun now events).step e).currentTickIntervalMs = 0 →
      Explained now (events ++ [e]) ((hookWorkerRun now events).step e)) :
    CadenceInv now (events ++ [e]) ((hookWorkerRun now events).step e) := by
  have hin := h.busy hbusy
  have hwaits : ∀ {phase : WorkerPhase Unit}, phase.InHandler → ¬phase.Timed ∧ ¬phase.Untimed := by
    intro phase hphase
    cases phase <;> first | exact hphase.elim | exact ⟨id, id⟩
  refine ⟨?_, fun _ => ?_, fun hset => ?_, hsetting, fun idleMs hread hidle => ?_, fun hparking => ?_,
    hpolling, fun htimed => ?_, fun huntimed => ?_, hexplained⟩
  · rw [hworker]
    exact h.worker
  · rw [hworker]
    exact hin
  · obtain ⟨hnot, hcurrent⟩ := hcoupled hset
    rw [hworker, hcurrent]
    exact h.coupled hnot
  · exact hlooked (.inl ⟨idleMs, hread, hidle⟩)
  · exact hlooked (.inr hparking)
  · rw [hworker] at htimed
    exact absurd htimed (hwaits hin).1
  · rw [hworker] at huntimed
    exact absurd huntimed (hwaits hin).2

/-- A look that is to come explains it. -/
lemma Explained.of_willLook {s : HookWorker π} (h : s.handler.WillLook) : Explained now events s :=
  .inr (.inr (.inr (.inr (.inl h))))

/-- So does a look before its store. -/
lemma Explained.of_hasLooked {s : HookWorker π} (h : s.handler.HasLooked) : Explained now events s :=
  .inr (.inr (.inr (.inr (.inr (.inl h)))))

/-- So does a look at two idle minutes with no key since. -/
lemma Explained.of_parked {s : HookWorker π} (h : ParkedSince now events) : Explained now events s :=
  .inr (.inr (.inr (.inr (.inr (.inr h)))))

/-- The cadence is to park only after a look at two idle minutes. -/
lemma idle_of_desired {idleMs : Nat} {known : Bool}
    (h : (if known ∧ idleMs < kIdleStopThreshMs then kChromiumActiveInterval
      else ComputeTickInterval idleMs) = 0) : kIdleStopThreshMs ≤ idleMs := by
  by_contra hlt
  have hlt := Nat.lt_of_not_le hlt
  rw [ComputeTickInterval, if_pos hlt] at h
  split at h <;> cases h

/-- A poll goes on, or ends. -/
lemma CadenceInv.polls (h : CadenceInv now events (hookWorkerRun now events))
    (hpoll : (hookWorkerRun now events).handler.polls = true)
    (hworker : ((hookWorkerRun now events).step e).worker = (hookWorkerRun now events).worker)
    (hcurrent : ((hookWorkerRun now events).step e).currentTickIntervalMs =
      (hookWorkerRun now events).currentTickIntervalMs)
    (hnext : ((hookWorkerRun now events).step e).handler.polls = true ∨
      ((hookWorkerRun now events).step e).handler = .idle ∨
      ((hookWorkerRun now events).step e).handler = .readClock) :
    CadenceInv now (events ++ [e]) ((hookWorkerRun now events).step e) := by
  have hcadence : ((hookWorkerRun now events).step e).currentTickIntervalMs ≠ 0 := by
    rw [hcurrent]
    exact h.polling hpoll
  have hbusy : (hookWorkerRun now events).handler ≠ .idle := by
    intro hidle
    rw [hidle] at hpoll
    cases hpoll
  have hset : ∀ d, (hookWorkerRun now events).handler ≠ .setInterval d := by
    intro d hd
    rw [hd] at hpoll
    cases hpoll
  -- none of the later phases of a handler is entered from a poll
  have hlater : ∀ phase : HandlerPhase, phase.polls = false → phase ≠ .idle → phase ≠ .readClock →
      ((hookWorkerRun now events).step e).handler ≠ phase := by
    rintro phase hpolls hidle hclock rfl
    obtain hp | hp | hp := hnext
    · exact absurd (hp.symm.trans hpolls) nofun
    · exact hidle hp
    · exact hclock hp
  refine h.moves hbusy hworker (fun _ => ⟨hset, hcurrent⟩) (fun d hd => ?_) ?_ (fun _ => hcadence)
    fun hzero => absurd hzero hcadence
  · exact absurd hd (hlater _ rfl nofun nofun)
  · rintro (⟨idleMs, hd, -⟩ | hd | hd) <;> exact absurd hd (hlater _ rfl nofun nofun)

/-- Before the look, a handler comes one step closer to it. -/
lemma CadenceInv.closer (h : CadenceInv now events (hookWorkerRun now events))
    (hbefore : (hookWorkerRun now events).handler.WillLook)
    (hworker : ((hookWorkerRun now events).step e).worker = (hookWorkerRun now events).worker)
    (hcurrent : ((hookWorkerRun now events).step e).currentTickIntervalMs =
      (hookWorkerRun now events).currentTickIntervalMs)
    (hlook : ((hookWorkerRun now events).step e).handler.WillLook) :
    CadenceInv now (events ++ [e]) ((hookWorkerRun now events).step e) := by
  have hbusy : (hookWorkerRun now events).handler ≠ .idle := by
    intro hidle
    simp [hidle, HandlerPhase.WillLook] at hbefore
  have hset : ∀ d, (hookWorkerRun now events).handler ≠ .setInterval d := by
    intro d hd
    simp [hd, HandlerPhase.WillLook] at hbefore
  refine h.moves hbusy hworker (fun _ => ⟨hset, hcurrent⟩) (fun d hd => ?_) ?_ (fun hpoll => ?_)
    fun _ => .of_willLook hlook
  · rw [hd] at hlook
    exact hlook.elim
  · rintro (⟨idleMs, hd, -⟩ | hd | hd) <;> rw [hd] at hlook <;> exact hlook.elim
  · cases hs : ((hookWorkerRun now events).step e).handler <;> rw [hs] at hlook hpoll <;>
      first | exact hlook.elim | cases hpoll

/-- A handler goes on. -/
lemma CadenceInv.stepHandler (h : CadenceInv now events (hookWorkerRun now events)) :
    CadenceInv now (events ++ [.handler]) ((hookWorkerRun now events).step .handler) := by
  have hstep : (hookWorkerRun now events).step .handler = (hookWorkerRun now events).stepHandler := rfl
  unfold HookWorker.stepHandler at hstep
  cases hhandler : (hookWorkerRun now events).handler with
  | idle =>
    rw [hhandler] at hstep
    exact h.same hstep
  | sync =>
    rw [hhandler] at hstep
    exact h.closer (by simp [hhandler, HandlerPhase.WillLook]) (by rw [hstep]) (by rw [hstep])
      (by rw [hstep]; trivial)
  | drain =>
    rw [hhandler] at hstep
    dsimp only at hstep
    split at hstep
    · exact h.closer (by simp [hhandler, HandlerPhase.WillLook]) (by rw [hstep]) (by rw [hstep])
        (by rw [hstep]; trivial)
    · exact h.closer (by simp [hhandler, HandlerPhase.WillLook]) (by rw [hstep]) (by rw [hstep])
        (by rw [hstep]; trivial)
  | poll =>
    rw [hhandler] at hstep
    refine h.polls (by rw [hhandler]; rfl) (by rw [hstep]) (by rw [hstep]) ?_
    rw [hstep]
    dsimp only
    split
    · exact .inr (.inl rfl)
    · exact .inl rfl
  | readPid fgPid =>
    rw [hhandler] at hstep
    refine h.polls (by rw [hhandler]; rfl) (by rw [hstep]) (by rw [hstep]) ?_
    rw [hstep]
    dsimp only
    split
    · exact .inl rfl
    · exact .inr (.inr rfl)
  | storePid fgPid =>
    rw [hhandler] at hstep
    exact h.polls (by rw [hhandler]; rfl) (by rw [hstep]) (by rw [hstep]) (.inl (by rw [hstep]; rfl))
  | classify =>
    rw [hhandler] at hstep
    exact h.polls (by rw [hhandler]; rfl) (by rw [hstep]) (by rw [hstep]) (.inr (.inr (by rw [hstep])))
  | readClock =>
    rw [hhandler] at hstep
    exact h.closer (by simp [hhandler, HandlerPhase.WillLook]) (by rw [hstep]) (by rw [hstep])
      (by rw [hstep]; trivial)
  | readActivity t =>
    rw [hhandler] at hstep
    refine h.moves (by simp [hhandler]) (by rw [hstep]) (fun _ => ⟨by simp [hhandler], by rw [hstep]⟩)
      (by simp [hstep]) ?_ (by simp [hstep]) fun _ => .of_hasLooked (by rw [hstep]; trivial)
    rintro (⟨idleMs, hread, hidle⟩ | hc | hc)
    · rw [hstep] at hread
      obtain rfl := HandlerPhase.readHijacker.inj hread
      refine ⟨events, [], t, rfl, hhandler, hidle, fun js hjs => ?_⟩
      rw [List.prefix_nil.1 hjs, hookWorkerRun_snoc, hstep]
      trivial
    · rw [hstep] at hc
      cases hc
    · rw [hstep] at hc
      cases hc
  | readHijacker idleMs =>
    rw [hhandler] at hstep
    refine h.moves (by simp [hhandler]) (by rw [hstep]) (fun _ => ⟨by simp [hhandler], by rw [hstep]⟩)
      (by simp [hstep]) ?_ (by simp [hstep]) fun _ => .of_hasLooked (by rw [hstep]; trivial)
    rintro (⟨idleMs', hread, -⟩ | hc | hc)
    · rw [hstep] at hread
      cases hread
    · rw [hstep] at hc
      refine (h.sawIdle idleMs hhandler (idle_of_desired (HandlerPhase.compare.inj hc))).snoc ?_
      rw [hstep]
      trivial
    · rw [hstep] at hc
      cases hc
  | compare d =>
    rw [hhandler] at hstep
    dsimp only at hstep
    split at hstep
    · refine h.moves (by simp [hhandler]) (by rw [hstep]) (fun _ => ⟨by simp [hhandler], by rw [hstep]⟩)
        (by simp [hstep]) ?_ (by simp [hstep]) fun _ => .of_hasLooked (by rw [hstep]; trivial)
      rintro (⟨idleMs, hread, -⟩ | hc | hc)
      · rw [hstep] at hread
        cases hread
      · rw [hstep] at hc
        cases hc
      · rw [hstep] at hc
        obtain rfl := HandlerPhase.publish.inj hc
        refine (h.parking (.inl hhandler)).snoc ?_
        rw [hstep]
        trivial
    · next hsame =>
      refine h.moves (by simp [hhandler]) (by rw [hstep]) (fun _ => ⟨by simp [hhandler], by rw [hstep]⟩)
        (by simp [hstep]) (by simp [hstep]) (by simp [hstep]) fun hzero => .of_parked ?_
      rw [hstep] at hzero
      have hd : d = 0 := (not_not.1 hsame).trans hzero
      exact (h.parking (.inl (hd ▸ hhandler))).parked.snoc (by rw [hstep])
  | publish d =>
    rw [hhandler] at hstep
    refine h.moves (by simp [hhandler]) (by rw [hstep]) (fun hset => ?_) (fun d' hd' => ?_)
      (by simp [hstep]) (by simp [hstep]) fun hzero => .of_parked ?_
    · exact absurd (by rw [hstep]) (hset d)
    · rw [hstep] at hd' ⊢
      exact HandlerPhase.setInterval.inj hd'
    · rw [hstep] at hzero
      exact (h.parking (.inr (hzero ▸ hhandler))).parked.snoc (by rw [hstep])
  | setInterval d =>
    rw [hhandler] at hstep
    have hbusy : (hookWorkerRun now events).handler ≠ .idle := by simp [hhandler]
    have hcurrent := h.setting d hhandler
    have hin := h.busy hbusy
    have hinv := h.worker.step (e := .SetTickInterval d)
    have hparked : (hookWorkerRun now events).currentTickIntervalMs = 0 →
        Explained now (events ++ [.handler]) ((hookWorkerRun now events).step .handler) := by
      intro hzero
      refine (h.explained hzero).mono ?_ (.inl (by rw [hstep]; rfl)) ?_
        fun hparked => .inr (hparked.snoc (by rw [hstep]))
      · rw [hstep]
        exact fun hactivity => hactivity.elim .inl fun hactivity => .inr (.inl hactivity)
      · rw [hhandler]
        exact fun hnot => hnot.elim False.elim False.elim
    rw [hstep] at hparked ⊢
    refine ⟨hinv, nofun, fun _ => ?_, nofun, nofun, by simp, nofun, fun htimed => ?_, fun huntimed => ?_,
      hparked⟩
    · exact congrArg Nat.cast hcurrent.symm
    · exact h.timed htimed
    · exact h.untimed huntimed

/-- A thread that signals explains itself. -/
lemma Explained.of_signal {s : HookWorker π} {w : MainThreadWorker Unit} (h : s.worker = w.step .Signal) :
    Explained now events s :=
  .inr (.inr (.inl (by rw [h]; rfl)))

/-- The hook thread goes on. -/
lemma CadenceInv.stepActivity (h : CadenceInv now events (hookWorkerRun now events)) :
    CadenceInv now (events ++ [.activity]) ((hookWorkerRun now events).step .activity) := by
  have hstep : (hookWorkerRun now events).step .activity = (hookWorkerRun now events).stepActivity := rfl
  unfold HookWorker.stepActivity at hstep
  cases hactivity : (hookWorkerRun now events).activity with
  | idle =>
    rw [hactivity] at hstep
    exact h.same hstep
  | store tick =>
    rw [hactivity] at hstep
    exact h.frame (by rw [hstep]) (by rw [hstep]) (by rw [hstep]) fun _ _ => .inl (by rw [hstep])
  | load =>
    rw [hactivity] at hstep
    dsimp only at hstep
    split at hstep
    · exact h.frame (by rw [hstep]) (by rw [hstep]) (by rw [hstep])
        fun _ _ => .inr (.inl (by rw [hstep]))
    · next hactive =>
      refine h.frame (by rw [hstep]) (by rw [hstep]) (by rw [hstep]) fun hzero _ => ?_
      exact absurd (hzero.symm.trans (not_not.1 hactive)) (by decide)
  | signal =>
    rw [hactivity] at hstep
    exact h.thread .Signal nofun (by rw [hstep]) rfl (by rw [hstep]) (by rw [hstep])
      fun _ _ => .of_signal (by rw [hstep])

/-- A step that changes neither the worker, nor its handler, nor the cadence, nor the last key. -/
lemma CadenceInv.aside (h : CadenceInv now events (hookWorkerRun now events))
    (hworker : ((hookWorkerRun now events).step e).worker = (hookWorkerRun now events).worker)
    (hhandler : ((hookWorkerRun now events).step e).handler = (hookWorkerRun now events).handler)
    (hcurrent : ((hookWorkerRun now events).step e).currentTickIntervalMs =
      (hookWorkerRun now events).currentTickIntervalMs)
    (hlast : ((hookWorkerRun now events).step e).lastActivityTickMs =
      (hookWorkerRun now events).lastActivityTickMs)
    (hactivity : (hookWorkerRun now events).activity = .idle ∨
      ((hookWorkerRun now events).step e).activity = (hookWorkerRun now events).activity) :
    CadenceInv now (events ++ [e]) ((hookWorkerRun now events).step e) := by
  refine h.frame hworker hhandler hcurrent fun _ hexplained => ?_
  refine hexplained.mono (fun hbusy => ?_) (.inl (by rw [hworker])) ?_
    fun hparked => .inr (hparked.snoc hlast)
  · obtain hidle | hsame := hactivity
    · simp [hidle] at hbusy
    · rw [hsame]
      exact hbusy.elim .inl fun hbusy => .inr (.inl hbusy)
  · rw [hhandler]
    exact fun hlook => hlook.imp_right .inl

/-- What every step preserves. -/
lemma CadenceInv.step (h : CadenceInv now events (hookWorkerRun now events)) :
    CadenceInv now (events ++ [e]) ((hookWorkerRun now events).step e) := by
  cases e with
  | Start =>
    refine h.outside .Start (by simp) rfl ?_
    simp only [MainThreadWorker.step]
    split <;> first | rfl | (split <;> rfl)
  | Stop =>
    refine h.outside .Stop (by simp) rfl ?_
    simp only [MainThreadWorker.step]
    split <;> first | rfl | (split <;> rfl)
  | owner =>
    refine h.outside .owner (by simp) rfl ?_
    simp only [MainThreadWorker.step, MainThreadWorker.stepOwner]
    split <;> first | rfl | (split <;> rfl)
  | Signal => exact h.outside .Signal (by simp) rfl rfl
  | notify =>
    refine h.outside .notify (by simp) rfl ?_
    simp only [MainThreadWorker.step]
    split <;> rfl
  | spurious => exact h.outside .spurious (by simp) rfl rfl
  | elapse ms => exact h.outside (.elapse ms) (by simp) rfl rfl
  | worker => exact h.stepWorker
  | handler => exact h.stepHandler
  | activity => exact h.stepActivity
  | foreground pid => exact h.aside rfl rfl rfl rfl (.inr rfl)
  | SetLastForegroundPid pid => exact h.aside rfl rfl rfl rfl (.inr rfl)
  | pollThrows =>
    by_cases hpoll : (hookWorkerRun now events).handler.polls = true
    · have hstep : (hookWorkerRun now events).step .pollThrows =
          { hookWorkerRun now events with handler := .idle } := if_pos hpoll
      exact h.polls hpoll (by rw [hstep]) (by rw [hstep]) (.inr (.inl (by rw [hstep])))
    · exact h.same (if_neg hpoll)
  | OnFocusChanged p triggerHwnd =>
    refine h.aside ?_ ?_ ?_ ?_ (.inr ?_) <;> simp only [HookWorker.step] <;> split <;> rfl
  | latching p =>
    by_cases hp : (hookWorkerRun now events).latching p = true
    · have hstep : (hookWorkerRun now events).step (.latching p) =
          { hookWorkerRun now events with
            latching := Function.update (hookWorkerRun now events).latching p false
            worker := (hookWorkerRun now events).worker.step .Signal } := if_pos hp
      exact h.thread .Signal (by simp) (by rw [hstep]) rfl (by rw [hstep]) (by rw [hstep])
        fun _ _ => .of_signal (by rw [hstep])
    · exact h.same (if_neg hp)
  | MarkActivity =>
    cases hactivity : (hookWorkerRun now events).activity with
    | idle =>
      refine h.aside ?_ ?_ ?_ ?_ (.inl hactivity) <;> simp only [HookWorker.step, hactivity]
    | _ => exact h.same (by simp only [HookWorker.step, hactivity])
  | setKnownHijacker isKnownHijacker =>
    cases hactivity : (hookWorkerRun now events).activity with
    | idle =>
      refine h.aside ?_ ?_ ?_ ?_ (.inl hactivity) <;> simp only [HookWorker.step, hactivity]
    | _ => exact h.same (by simp only [HookWorker.step, hactivity])

/-- At the start the cadence is the active one. -/
lemma CadenceInv.start : CadenceInv now ([] : List (HandlerEvent π)) (hookWorkerRun now []) where
  worker := ⟨rfl, nofun, nofun, nofun, nofun, nofun,
    fun _ => by simp [hookWorkerRun, init, MainThreadWorker.init], nofun, nofun⟩
  busy hbusy := absurd rfl hbusy
  coupled _ := rfl
  setting := nofun
  sawIdle := nofun
  parking := by simp [hookWorkerRun, init]
  polling := nofun
  timed := False.elim
  untimed := False.elim
  explained := nofun

/-- The invariant holds in every run. -/
lemma cadenceInv : CadenceInv now events (hookWorkerRun now events) := by
  induction events using List.reverseRecOn with
  | nil => exact .start
  | append_singleton events e ih =>
    rw [hookWorkerRun_snoc]
    exact ih.step

end HookWorker

open HookWorker

/-- When the worker sleeps without an end, with no key and no signal under way, it has looked at two
minutes without a key, and the last key is the one it saw or came between that look and the store of the
cadence. -/
theorem parked_cases {π : Type} [DecidableEq π] {now : Nat} {events : List (HandlerEvent π)}
    (hparked : (hookWorkerRun now events).worker.phase = .blocked none)
    (hactivity : (hookWorkerRun now events).activity = .idle)
    (hsignal : unanswered (hookWorkerRun now events).worker.log = false)
    (hstop : .dropped ∉ (hookWorkerRun now events).worker.log) :
    ∃ before during after t, events = before ++ .handler :: during ++ after ∧
      (hookWorkerRun now before).handler = .readActivity t ∧
      kIdleStopThreshMs ≤ t - (hookWorkerRun now before).lastActivityTickMs ∧
      (∀ js, js <+: during → (hookWorkerRun now (before ++ .handler :: js)).handler.HasLooked) ∧
      (hookWorkerRun now events).lastActivityTickMs =
        (hookWorkerRun now (before ++ .handler :: during)).lastActivityTickMs := by
  have h : CadenceInv now events (hookWorkerRun now events) := cadenceInv
  have hidle : (hookWorkerRun now events).handler = .idle := by
    by_contra hbusy
    have hin := h.busy hbusy
    rw [hparked] at hin
    exact hin
  have huntimed : (hookWorkerRun now events).worker.phase.Untimed := by
    rw [hparked]
    trivial
  obtain hload | hsignaling | hunanswered | hdropped | hlook | hlooked | hsince :=
    h.explained (h.untimed huntimed)
  · exact absurd (hactivity.symm.trans hload) nofun
  · exact absurd (hactivity.symm.trans hsignaling) nofun
  · exact absurd (hsignal.symm.trans hunanswered) nofun
  · exact absurd hdropped hstop
  · rw [hidle] at hlook
    exact hlook.elim
  · rw [hidle] at hlooked
    exact hlooked.elim
  · obtain ⟨looked, after, hevents, ⟨before, during, t, rfl, hread, hold, hduring⟩, hlast⟩ := hsince
    exact ⟨before, during, after, t, hevents, hread, hold, hduring, hlast⟩

/-- A key that comes between the look and the store. -/
def typing : List (HandlerEvent Unit) :=
  [.foreground 0x9, .SetLastForegroundPid 0x9, .Start, .owner, .worker, .elapse 120000, .worker, .worker,
    .handler, .handler, .handler, .handler, .MarkActivity, .activity, .activity, .handler, .handler, .handler,
    .handler, .worker, .worker]

/-- The worker is parked, and the last key is just now. -/
theorem parked_typing :
    (hookWorkerRun 0 typing).lastActivityTickMs = (hookWorkerRun 0 typing).worker.now ∧
      ∃ before during after t, typing = before ++ .handler :: during ++ after ∧
        (hookWorkerRun 0 before).handler = .readActivity t ∧
        kIdleStopThreshMs ≤ t - (hookWorkerRun 0 before).lastActivityTickMs ∧
        (∀ js, js <+: during → (hookWorkerRun 0 (before ++ .handler :: js)).handler.HasLooked) ∧
        (hookWorkerRun 0 typing).lastActivityTickMs =
          (hookWorkerRun 0 (before ++ .handler :: during)).lastActivityTickMs :=
  ⟨by decide, parked_cases (by decide) (by decide) (by decide) (by decide)⟩

end NextKey
