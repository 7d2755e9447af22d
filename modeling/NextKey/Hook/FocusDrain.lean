import NextKey.Hook.WorkerHandlers

/-!
# The last focus event is classified

A focus event latches its window and signals the worker, which takes the latch in its work handler. The
latch is one slot, so of several windows the last one is left; and since the slot is filled before the
signal and the work handler takes it after the signal was taken, no window stays in the slot when all is
done. Its window is then the last one that was classified, but for those in the foreground that a poll
has found in another process since (`last_focus_classified`).
-/

namespace NextKey

namespace HookWorker

variable {π : Type} {s : HookWorker π} {e : HandlerEvent π}

/-- Somebody will come to take the latch, unless `Stop` has dropped the signal. -/
def Coming (s : HookWorker π) : Prop :=
  (∃ p, s.latching p = true) ∨ unanswered s.worker.log = true ∨ s.handler = .sync ∨
    s.handler = .drain ∨ .dropped ∈ s.worker.log

/-- The last focus event's window is classified, and after it nothing but windows that a poll found in the
foreground. -/
def UpToDate (s : HookWorker π) : Prop :=
  (s.classified.dropWhile (· = .polled)).head? =
    s.latched.head?.map fun hwnd => .drained (decodeHwnd (encodeHwnd hwnd))

/-- What holds between any two steps. -/
structure DrainInv (s : HookWorker π) : Prop where
  worker : s.worker.WorkerInv
  empty : s.pendingClassifyHwnd = kClassifyEmpty → s.UpToDate
  latched : s.pendingClassifyHwnd ≠ kClassifyEmpty →
    s.latched.head?.map encodeHwnd = some s.pendingClassifyHwnd ∧ s.Coming

/-- Who comes for the latch still comes when the worker goes on, unless it starts the work handler. -/
lemma Coming.mono {t : HookWorker π} (h : s.Coming)
    (hlatching : (∃ p, s.latching p = true) → (∃ p, t.latching p = true) ∨ unanswered t.worker.log = true)
    (hlog : t.worker.log = s.worker.log ∨
      ∃ x, t.worker.log = x :: s.worker.log ∧ ∀ handler, x ≠ .work handler)
    (hhandler : s.handler = .sync ∨ s.handler = .drain → t.handler = .sync ∨ t.handler = .drain) :
    t.Coming := by
  obtain hfocus | hsignal | hsync | hdrain | hdropped := h
  · exact (hlatching hfocus).imp_right .inl
  · obtain hsame | ⟨x, hx, hne⟩ := hlog
    · exact .inr (.inl (by rwa [hsame]))
    · cases x with
      | signaled => exact .inr (.inl (by rw [hx]; rfl))
      | tick handler => exact .inr (.inl (by rw [hx]; exact hsignal))
      | work handler => exact absurd rfl (hne handler)
      | dropped => exact .inr (.inr (.inr (.inr (by rw [hx]; exact List.mem_cons_self))))
  · exact .inr (.inr ((hhandler (.inl hsync)).imp_right .inl))
  · exact .inr (.inr ((hhandler (.inr hdrain)).imp_right .inl))
  · refine .inr (.inr (.inr (.inr ?_)))
    obtain hsame | ⟨x, hx, -⟩ := hlog
    · rwa [hsame]
    · rw [hx]
      exact List.mem_cons_of_mem x hdropped

/-- A step that leaves the latch and what the drains have classified, and whoever comes for the latch. -/
lemma DrainInv.frame {t : HookWorker π} (h : s.DrainInv) (hworker : t.worker.WorkerInv)
    (hpending : t.pendingClassifyHwnd = s.pendingClassifyHwnd) (hlatched : t.latched = s.latched)
    (hclassified : t.classified.dropWhile (· = .polled) = s.classified.dropWhile (· = .polled))
    (hcoming : s.Coming → t.Coming) : t.DrainInv := by
  refine ⟨hworker, fun hempty => ?_, fun hfull => ?_⟩
  · rw [UpToDate, hclassified, hlatched]
    exact h.empty (hpending.symm.trans hempty)
  · rw [hlatched, hpending]
    rw [hpending] at hfull
    exact ⟨(h.latched hfull).1, hcoming (h.latched hfull).2⟩

/-- A step of another thread in the worker. -/
lemma DrainInv.thread {e : WorkerEvent Unit} (h : s.DrainInv) (he : e ≠ .worker) :
    DrainInv { s with worker := s.worker.step e } := by
  refine h.frame h.worker.step rfl rfl rfl fun hcoming => hcoming.mono .inl ?_ id
  obtain hsame | ⟨x, hx, hkind⟩ := s.worker.step_log_cases (e := e)
  · exact .inl hsame
  · refine .inr ⟨x, hx, fun handler hwork => ?_⟩
    obtain rfl | rfl | ⟨hworker, -⟩ := hkind
    · cases hwork
    · cases hwork
    · exact he hworker

/-- A signal is noted. -/
lemma Coming.of_signal {t : HookWorker π} (hworker : t.worker = s.worker.step .Signal) : t.Coming :=
  .inr (.inl (by rw [hworker]; rfl))

/-- The worker goes on. -/
lemma DrainInv.stepWorker (h : s.DrainInv) : s.stepWorker.DrainInv := by
  unfold HookWorker.stepWorker
  split
  · next hidle =>
    refine h.frame (h.worker.step (e := .worker)) rfl rfl rfl fun hcoming => ?_
    obtain hsame | ⟨x, hx, hkind⟩ := s.worker.step_log_cases (e := .worker)
    · exact hcoming.mono .inl (.inl hsame) fun hnot => absurd hnot (by simp [hidle])
    · by_cases hwork : ∃ handler, x = .work handler
      · obtain ⟨handler, rfl⟩ := hwork
        obtain hsignaled | hdropped | ⟨-, -, hphase, -⟩ := hkind
        · cases hsignaled
        · cases hdropped
        · refine .inr (.inr (.inl ?_))
          exact congrArg WorkerPhase.entry (hphase handler rfl).2
      · refine hcoming.mono .inl (.inr ⟨x, hx, fun handler hx => hwork ⟨handler, hx⟩⟩) ?_
        exact fun hnot => absurd hnot (by simp [hidle])
  · exact h

/-- A handler goes on. -/
lemma DrainInv.stepHandler (h : s.DrainInv) : s.stepHandler.DrainInv := by
  -- after the drain, a handler does not touch the latch
  have hlater : ∀ {phase : HandlerPhase} {current : Nat}, s.handler ≠ .sync → s.handler ≠ .drain →
      DrainInv { s with handler := phase, currentTickIntervalMs := current } := by
    intro phase current hsync hdrain
    refine h.frame h.worker rfl rfl rfl fun hcoming => hcoming.mono .inl (.inl rfl) ?_
    exact fun hnot => absurd hnot (by simp [hsync, hdrain])
  unfold HookWorker.stepHandler
  cases hhandler : s.handler with
  | idle => exact h
  | sync =>
    refine h.frame h.worker rfl rfl rfl fun hcoming => hcoming.mono .inl (.inl rfl) ?_
    exact fun _ => .inr rfl
  | drain =>
    dsimp only
    split
    · next hempty =>
      exact ⟨h.worker, h.empty, fun hfull => absurd hempty hfull⟩
    · next hfull =>
      obtain ⟨hlast, -⟩ := h.latched hfull
      refine ⟨h.worker, fun _ => ?_, fun hfull => absurd rfl hfull⟩
      obtain ⟨hwnd, hhead, hencoded⟩ := Option.map_eq_some_iff.1 hlast
      rw [UpToDate, hhead, Option.map_some, hencoded]
      rfl
  | poll => exact hlater (by simp [hhandler]) (by simp [hhandler])
  | readPid fgPid => exact hlater (by simp [hhandler]) (by simp [hhandler])
  | storePid fgPid =>
    refine h.frame h.worker rfl rfl rfl fun hcoming => hcoming.mono .inl (.inl rfl) ?_
    exact fun hnot => absurd hnot (by simp [hhandler])
  | classify =>
    -- what a poll classifies stands above the last drain
    refine h.frame h.worker rfl rfl rfl fun hcoming => hcoming.mono .inl (.inl rfl) ?_
    exact fun hnot => absurd hnot (by simp [hhandler])
  | readClock => exact hlater (by simp [hhandler]) (by simp [hhandler])
  | readActivity now => exact hlater (by simp [hhandler]) (by simp [hhandler])
  | readHijacker idleMs => exact hlater (by simp [hhandler]) (by simp [hhandler])
  | compare desiredMs => exact hlater (by simp [hhandler]) (by simp [hhandler])
  | publish desiredMs => exact hlater (by simp [hhandler]) (by simp [hhandler])
  | setInterval desiredMs =>
    have hset := h.thread (e := .SetTickInterval desiredMs) nofun
    refine hset.frame hset.worker rfl rfl rfl fun hcoming => hcoming.mono .inl (.inl rfl) ?_
    exact fun hnot => absurd hnot (by simp [hhandler])

/-- The hook thread goes on. -/
lemma DrainInv.stepActivity (h : s.DrainInv) : s.stepActivity.DrainInv := by
  unfold HookWorker.stepActivity
  split
  · exact h
  · exact h.frame h.worker rfl rfl rfl fun hcoming => hcoming.mono .inl (.inl rfl) id
  · exact h.frame h.worker rfl rfl rfl fun hcoming => hcoming.mono .inl (.inl rfl) id
  · exact h.frame (h.worker.step (e := .Signal)) rfl rfl rfl fun _ => Coming.of_signal rfl

/-- At the start. -/
lemma DrainInv.start {now : Nat} : DrainInv (init now : HookWorker π) where
  worker := ⟨rfl, nofun, nofun, nofun, nofun, nofun, fun _ => by simp [init, MainThreadWorker.init],
    nofun, nofun⟩
  empty _ := rfl
  latched hfull := absurd rfl hfull

variable [DecidableEq π]

/-- What every step preserves. -/
lemma DrainInv.step (h : s.DrainInv) : (s.step e).DrainInv := by
  cases e with
  | Start => exact h.thread nofun
  | Stop => exact h.thread nofun
  | owner => exact h.thread nofun
  | Signal => exact h.thread nofun
  | notify => exact h.thread nofun
  | spurious => exact h.thread nofun
  | elapse ms => exact h.thread nofun
  | worker => exact h.stepWorker
  | handler => exact h.stepHandler
  | activity => exact h.stepActivity
  | foreground pid => exact h.frame h.worker rfl rfl rfl fun hcoming => hcoming.mono .inl (.inl rfl) id
  | SetLastForegroundPid pid =>
    exact h.frame h.worker rfl rfl rfl fun hcoming => hcoming.mono .inl (.inl rfl) id
  | pollThrows =>
    simp only [HookWorker.step]
    split
    · next hpoll =>
      refine h.frame h.worker rfl rfl rfl fun hcoming => hcoming.mono .inl (.inl rfl) ?_
      rintro (hsync | hdrain)
      · rw [hsync] at hpoll
        cases hpoll
      · rw [hdrain] at hpoll
        cases hpoll
    · exact h
  | OnFocusChanged p triggerHwnd =>
    simp only [HookWorker.step]
    split
    · exact h
    · refine ⟨h.worker, fun hempty => absurd hempty (encodeHwnd_ne_empty _), fun _ => ⟨rfl, .inl ⟨p, ?_⟩⟩⟩
      exact Function.update_self ..
  | latching p =>
    simp only [HookWorker.step]
    split
    · exact h.frame (h.worker.step (e := .Signal)) rfl rfl rfl fun _ => Coming.of_signal rfl
    · exact h
  | MarkActivity =>
    simp only [HookWorker.step]
    split
    · exact h.frame h.worker rfl rfl rfl fun hcoming => hcoming.mono .inl (.inl rfl) id
    · exact h
  | setKnownHijacker isKnownHijacker =>
    simp only [HookWorker.step]
    split
    · exact h.frame h.worker rfl rfl rfl fun hcoming => hcoming.mono .inl (.inl rfl) id
    · exact h

end HookWorker

open HookWorker

/-- When no signal of a focus event is under way or waits, and no work handler is before its drain, the
latch is empty and the window of the last focus event is classified, after all others that were latched.
Only polls have classified the foreground since. -/
theorem last_focus_classified {π : Type} [DecidableEq π] {now : Nat} {events : List (HandlerEvent π)}
    (hlatching : ∀ p, (hookWorkerRun now events).latching p = false)
    (hsignal : unanswered (hookWorkerRun now events).worker.log = false)
    (hsync : (hookWorkerRun now events).handler ≠ .sync)
    (hdrain : (hookWorkerRun now events).handler ≠ .drain)
    (hstop : .dropped ∉ (hookWorkerRun now events).worker.log) :
    (hookWorkerRun now events).pendingClassifyHwnd = kClassifyEmpty ∧
      ((hookWorkerRun now events).classified.dropWhile (· = .polled)).head? =
        (hookWorkerRun now events).latched.head?.map fun hwnd =>
          .drained (decodeHwnd (encodeHwnd hwnd)) := by
  have h : (hookWorkerRun now events).DrainInv := Machine.run_invariant DrainInv.start fun h => h.step
  have hempty : (hookWorkerRun now events).pendingClassifyHwnd = kClassifyEmpty := by
    by_contra hfull
    obtain ⟨p, hp⟩ | hunanswered | hhandler | hhandler | hdropped := (h.latched hfull).2
    · exact absurd ((hlatching p).symm.trans hp) nofun
    · exact absurd (hsignal.symm.trans hunanswered) nofun
    · exact hsync hhandler
    · exact hdrain hhandler
    · exact hstop hdropped
  exact ⟨hempty, h.empty hempty⟩

/-- Two focus events before the worker comes to them, and then a window of another process in front that
no event tells of. -/
def focusTwice : List (HandlerEvent Unit) :=
  [.Start, .owner, .worker, .OnFocusChanged () 0x5, .latching (), .OnFocusChanged () 0x7, .notify, .worker,
    .latching (), .handler, .handler, .notify, .handler, .handler, .handler, .handler, .worker, .worker,
    .handler, .handler, .handler, .handler, .handler, .handler, .foreground 0x9, .worker, .worker,
    .elapse 200, .worker, .worker, .handler, .handler, .handler, .handler]

/-- The second event is drained, its signal waits for another, empty drain, and the poll comes last. -/
theorem last_focus_classified_twice :
    (hookWorkerRun 0 focusTwice).classified.head? = some .polled ∧
      ((hookWorkerRun 0 focusTwice).classified.dropWhile (· = .polled)).head? = some (.drained 0x7) :=
  ⟨by decide, (@last_focus_classified _ _ 0 focusTwice (fun _ => rfl) (by decide) (by decide)
    (by decide) (by decide)).2⟩

end NextKey
