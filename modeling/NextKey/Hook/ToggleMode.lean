import Mathlib.Logic.Function.Iterate
import NextKey.Hook.Focus
import NextKey.Hook.Mailbox

/-!
# Toggling the mode from other threads

`HookEngine::ToggleVietnameseMode` runs on any thread and posts `kToggleVN`; the hook thread toggles
the mode when it drains the bit. A call that finds the bit set adds nothing, so the mode is toggled
once for each call that finds the bit clear (`mode_toggled`), and two calls before a drain toggle it
once (`mode_toggled_once`).
-/

namespace NextKey

/-- A call of `ToggleVietnameseMode`, or a step of a thread. -/
def MailboxEvent.onlyToggles {φ π : Type} : MailboxEvent φ π → Prop
  | .Post _ bit cls => bit = HookCommand.kToggleVN ∧ cls = none
  | _ => True

/-- The commands that change the mode, while the foreground window is of process `fgPid`. -/
def modeHandlers (cfg : FocusConfig) (fgPid : BitVec 32) : Handlers FocusClassification FocusState where
  ApplyFocusOnHookThread cls s := match cls with
    | some cls => ApplyFocusOnHookThread cfg cls s
    | none => s
  ApplyTickPollOnHookThread s := s
  ApplyToggleVNOnHookThread := ApplyToggleVNOnHookThread cfg fgPid
  ApplyConfigOnHookThread s := s
  engineEmpty _ := true

/-- A word asks for a toggle. -/
abbrev hasToggle (bits : BitVec 32) : Bool := hasCommand bits HookCommand.kToggleVN

/-- The calls that have set the bit. -/
def toggleCalls {φ : Type} : List (MailboxEntry φ) → Nat
  | [] => 0
  | .posted bit :: log => toggleCalls log + (hasToggle bit).toNat
  | _ :: log => toggleCalls log

/-- The calls that found the bit clear. -/
def freshToggles {φ : Type} : List (MailboxEntry φ) → Nat
  | [] => 0
  | .posted bit :: log => freshToggles log + (hasToggle bit && !hasToggle (pendingBits log)).toNat
  | _ :: log => freshToggles log

/-- The words drained that ask for a toggle. -/
def drainedToggles {φ : Type} : List (MailboxEntry φ) → Nat
  | [] => 0
  | .drained bits :: log => drainedToggles log + (hasToggle bits).toNat
  | _ :: log => drainedToggles log

/-- The toggle of a word that is drained and not dispatched. -/
def Drain.toggles : Drain → Nat
  | .dispatch bits => (hasToggle bits).toNat
  | _ => 0

/-- Only toggles are asked for. -/
def onlyToggle (bits : BitVec 32) : Prop := bits = 0 ∨ bits = HookCommand.kToggleVN

/-- Where a call of `ToggleVietnameseMode` can stand. -/
def Post.isToggle {φ : Type} : Post φ → Prop
  | .store _ _ => False
  | .setBit bit => bit = HookCommand.kToggleVN
  | _ => True

/-- What holds in every state, when the mode was `initial` before any call. -/
structure ToggleInv {φ π : Type} (initial : Bool) (s : Mailbox φ FocusState π) : Prop where
  notExcluded : s.hook.isExcludedApp = false
  notForced : s.hook.isForcedVnApp = false
  noConfig : s.deferredConfigApply = false
  calls : ∀ p, (s.producer p).isToggle
  bits : onlyToggle s.bits
  drain : ∀ bits, s.drain = .dispatch bits → onlyToggle bits
  pending : s.bits = pendingBits s.log
  fresh : freshToggles s.log = drainedToggles s.log + (hasToggle s.bits).toNat
  mode : not^[s.drain.toggles] s.hook.vietnameseMode = not^[drainedToggles s.log] initial

section
variable {π : Type} {initial : Bool} {cfg : FocusConfig} {fgPid : BitVec 32}
  {s : Mailbox FocusClassification FocusState π} {p : π}

/-- The mode is toggled in an app that is not locked. -/
lemma ApplyToggleVNOnHookThread_unlocked {t : FocusState} (hexcluded : t.isExcludedApp = false)
    (hforced : t.isForcedVnApp = false) :
    (ApplyToggleVNOnHookThread cfg fgPid t).vietnameseMode = (!t.vietnameseMode) ∧
      (ApplyToggleVNOnHookThread cfg fgPid t).isExcludedApp = false ∧
      (ApplyToggleVNOnHookThread cfg fgPid t).isForcedVnApp = false := by
  simp [ApplyToggleVNOnHookThread, hexcluded, hforced]

/-- At the start. -/
lemma ToggleInv.start {hook : FocusState} (hexcluded : hook.isExcludedApp = false)
    (hforced : hook.isForcedVnApp = false) :
    ToggleInv hook.vietnameseMode (Mailbox.init hook : Mailbox FocusClassification FocusState π) where
  notExcluded := hexcluded
  notForced := hforced
  noConfig := rfl
  calls _ := trivial
  bits := .inl rfl
  drain _ hdrain := by cases hdrain
  pending := rfl
  fresh := (by decide : 0 = 0 + (hasToggle 0).toNat)
  mode := rfl

/-- A word of toggles is dispatched. -/
lemma dispatch_toggle {h : Handlers FocusClassification FocusState} {bits} (hbits : onlyToggle bits)
    (hconfig : s.deferredConfigApply = false) :
    s.dispatch h bits =
      { s with
        hook := if hasToggle bits then h.ApplyToggleVNOnHookThread s.hook else s.hook
        drain := .idle } := by
  have hothers : hasCommand bits HookCommand.kFocusChanged = false ∧
      hasCommand bits HookCommand.kConfigApply = false ∧
      hasCommand bits HookCommand.kTickPoll = false := by
    obtain rfl | rfl := hbits
    all_goals decide
  obtain ⟨hfocus, happly, htick⟩ := hothers
  simp only [Mailbox.dispatch, hfocus, happly, htick, hconfig, Bool.false_eq_true, if_false,
    Bool.or_false, Bool.false_and]

/-- The drained commands are dispatched. -/
lemma ToggleInv.dispatch {bits} (hinv : ToggleInv initial s) (hdrain : s.drain = .dispatch bits) :
    ToggleInv initial (s.dispatch (modeHandlers cfg fgPid) bits) := by
  rw [dispatch_toggle (hinv.drain bits hdrain) hinv.noConfig]
  have hmode := hinv.mode
  rw [hdrain] at hmode
  cases htoggle : hasToggle bits with
  | false =>
    simp only [Drain.toggles, htoggle] at hmode
    exact { hinv with drain := by simp, mode := hmode }
  | true =>
    simp only [Drain.toggles, htoggle] at hmode
    obtain ⟨hflip, hexcluded, hforced⟩ :=
      @ApplyToggleVNOnHookThread_unlocked cfg fgPid _ hinv.notExcluded hinv.notForced
    exact { hinv with
      notExcluded := hexcluded
      notForced := hforced
      drain := by simp
      mode := hflip.trans hmode }

/-- The hook thread takes a step. -/
lemma ToggleInv.stepDrain (hinv : ToggleInv initial s) :
    ToggleInv initial (s.stepDrain (modeHandlers cfg fgPid)) := by
  have hmode := hinv.mode
  simp only [Mailbox.stepDrain]
  split
  · exact hinv
  · next hdrain =>
    rw [hdrain] at hmode
    exact { hinv with drain := by simp, mode := hmode }
  · next hdrain =>
    rw [hdrain] at hmode
    refine { hinv with
      bits := .inl rfl
      drain := ?_
      pending := rfl
      fresh := ?_
      mode := ?_ }
    · rintro bits hbits
      cases hbits
      exact hinv.bits
    · have hzero : hasToggle 0 = false := by decide
      dsimp only
      rw [hzero, freshToggles, drainedToggles, hinv.fresh]
      · rfl
      · simp
    · have hmode' : s.hook.vietnameseMode = not^[drainedToggles s.log] initial := hmode
      show not^[(hasToggle s.bits).toNat] s.hook.vietnameseMode =
        not^[drainedToggles s.log + (hasToggle s.bits).toNat] initial
      rw [hmode', ← Function.iterate_add_apply, Nat.add_comm]
  · next bits hdrain => exact hinv.dispatch hdrain

variable [DecidableEq π]

omit [DecidableEq π] in
/-- A step of one call leaves the others where they are. -/
lemma isToggle_update [DecidableEq π] {v : Post FocusClassification} (hv : v.isToggle)
    (hcalls : ∀ q, (s.producer q).isToggle) (q : π) : (Function.update s.producer p v q).isToggle := by
  by_cases hq : q = p
  · subst hq
    rw [Function.update_self]
    exact hv
  · rw [Function.update_of_ne hq]
    exact hcalls q

/-- A call takes a step. -/
lemma ToggleInv.stepPost (hinv : ToggleInv initial s) : ToggleInv initial (s.stepPost p) := by
  have hcall := hinv.calls p
  simp only [Mailbox.stepPost]
  split
  · exact hinv
  · next hp =>
    rw [hp] at hcall
    exact hcall.elim
  · next bit hp =>
    rw [hp] at hcall
    have hbit : bit = HookCommand.kToggleVN := hcall
    subst hbit
    have hset : s.bits ||| HookCommand.kToggleVN = HookCommand.kToggleVN := by
      obtain hbits | hbits := hinv.bits
      all_goals
        rw [hbits]
        rfl
    refine { hinv with
      calls := isToggle_update trivial hinv.calls
      bits := .inr hset
      pending := congrArg (· ||| HookCommand.kToggleVN) hinv.pending
      fresh := ?_ }
    have hfresh := hinv.fresh
    dsimp only
    rw [hset, freshToggles, hfresh, drainedToggles, ← hinv.pending]
    · cases hasToggle s.bits <;> rfl
    · simp
  · next hp =>
    refine { hinv with calls := isToggle_update ?_ hinv.calls }
    split <;> trivial
  · next hp => exact { hinv with calls := isToggle_update trivial hinv.calls }

/-- Every event keeps the invariant. -/
lemma ToggleInv.step {e} (hinv : ToggleInv initial s) (he : e.onlyToggles) :
    ToggleInv initial (s.step (modeHandlers cfg fgPid) e) := by
  have hmode := hinv.mode
  cases e with
  | Post p bit cls =>
    obtain ⟨rfl, rfl⟩ := he
    simp only [Mailbox.step]
    split
    · next hcls => cases hcls
    · exact { hinv with calls := isToggle_update rfl hinv.calls }
    · exact hinv
  | step p => exact hinv.stepPost
  | wake =>
    simp only [Mailbox.step]
    split
    · next hdrain _ =>
      rw [hdrain] at hmode
      exact { hinv with drain := by simp, mode := hmode }
    · exact hinv
  | keydown =>
    simp only [Mailbox.step]
    split
    · next hdrain =>
      rw [hdrain] at hmode
      exact { hinv with drain := by simp, mode := hmode }
    · exact hinv
  | drain => exact hinv.stepDrain

/-- The mode after every interleaving of calls and drains. -/
lemma toggleInv {hook : FocusState} {events : List (MailboxEvent FocusClassification π)}
    (hexcluded : hook.isExcludedApp = false) (hforced : hook.isForcedVnApp = false)
    (hevents : ∀ e ∈ events, e.onlyToggles) :
    ToggleInv hook.vietnameseMode (mailboxRun (modeHandlers cfg fgPid) hook events) := by
  have hguard : Machine.Guarded (Mailbox.step (modeHandlers cfg fgPid)) (fun _ e => e.onlyToggles)
      (Mailbox.init hook) events :=
    Machine.guarded_of_forall fun e he _ => hevents e he
  exact hguard.invariant (.start hexcluded hforced) fun hinv he => hinv.step he

end

/-- No call found the bit of another set. -/
def NoneCoalesced {φ : Type} (log : List (MailboxEntry φ)) : Prop :=
  ∀ later bit earlier, log = later ++ .posted bit :: earlier → hasToggle (pendingBits earlier) = false

/-- Calls that are not coalesced are all fresh. -/
lemma NoneCoalesced.freshToggles {φ : Type} {log : List (MailboxEntry φ)} (h : NoneCoalesced log) :
    freshToggles log = toggleCalls log := by
  induction log with
  | nil => rfl
  | cons e log ih =>
    have hrest : NoneCoalesced log := fun later bit earlier hlog =>
      h (e :: later) bit earlier (by rw [hlog]; rfl)
    have hlog := ih hrest
    cases e with
    | posted bit =>
      have hclear := h [] bit log rfl
      rw [NextKey.freshToggles, toggleCalls, hlog, hclear, Bool.not_false, Bool.and_true]
    | _ => exact hlog

/-- Once all calls and drains have run, the mode has been toggled once for each call that found the bit
    clear, and for each call when none found the bit of another set. -/
theorem mode_toggled {π : Type} [DecidableEq π] {cfg : FocusConfig} {fgPid : BitVec 32}
    {hook : FocusState} {events : List (MailboxEvent FocusClassification π)}
    (hexcluded : hook.isExcludedApp = false) (hforced : hook.isForcedVnApp = false)
    (hevents : ∀ e ∈ events, e.onlyToggles)
    (hquiet : (mailboxRun (modeHandlers cfg fgPid) hook events).Quiescent) :
    (mailboxRun (modeHandlers cfg fgPid) hook events).hook.vietnameseMode =
        not^[freshToggles (mailboxRun (modeHandlers cfg fgPid) hook events).log] hook.vietnameseMode ∧
      (NoneCoalesced (mailboxRun (modeHandlers cfg fgPid) hook events).log →
        (mailboxRun (modeHandlers cfg fgPid) hook events).hook.vietnameseMode =
          not^[toggleCalls (mailboxRun (modeHandlers cfg fgPid) hook events).log]
            hook.vietnameseMode) := by
  have hinv := @toggleInv π cfg fgPid _ hook events hexcluded hforced hevents
  have hwake : WakeInv (mailboxRun (modeHandlers cfg fgPid) hook events) := wakeInv
  generalize mailboxRun (modeHandlers cfg fgPid) hook events = s at hinv hwake hquiet
  have hfresh : freshToggles s.log = drainedToggles s.log := by
    rw [hinv.fresh, hwake.bits_eq_zero hquiet]
    rfl
  have hmode := hinv.mode
  rw [hquiet.noDrain, ← hfresh] at hmode
  have htoggled : s.hook.vietnameseMode = not^[freshToggles s.log] hook.vietnameseMode := hmode
  refine ⟨htoggled, fun hnone => ?_⟩
  rw [htoggled, hnone.freshToggles]

/-- A whole call. -/
def callOnce (p : Bool) : List (MailboxEvent FocusClassification Bool) :=
  [.Post p HookCommand.kToggleVN none, .step p, .step p, .step p]

/-- The wake message and its drain. -/
def wakeDrain : List (MailboxEvent FocusClassification Bool) := [.wake, .drain, .drain, .drain]

/-- Two toggles in one drain. -/
theorem mode_toggled_twice :
    (mailboxRun (modeHandlers {} 0) { vietnameseMode := true }
      (callOnce false ++ wakeDrain ++ callOnce true ++ wakeDrain)).hook.vietnameseMode =
        not^[2] true :=
  (@mode_toggled Bool _ {} 0 { vietnameseMode := true }
    (callOnce false ++ wakeDrain ++ callOnce true ++ wakeDrain) rfl rfl
    (by simp [callOnce, wakeDrain, MailboxEvent.onlyToggles])
    ⟨fun p => by cases p <;> rfl, rfl, rfl⟩).1

/-- Two calls before a drain toggle the mode once. -/
theorem mode_toggled_once :
    ¬∀ events : List (MailboxEvent FocusClassification Bool), (∀ e ∈ events, e.onlyToggles) →
      (mailboxRun (modeHandlers {} 0) { vietnameseMode := true } events).Quiescent →
      (mailboxRun (modeHandlers {} 0) { vietnameseMode := true } events).hook.vietnameseMode =
        not^[toggleCalls (mailboxRun (modeHandlers {} 0) { vietnameseMode := true } events).log]
          true := by
  intro h
  have hmode := h (callOnce false ++ callOnce true ++ wakeDrain)
    (by simp [callOnce, wakeDrain, MailboxEvent.onlyToggles])
    ⟨fun p => by cases p <;> rfl, rfl, rfl⟩
  revert hmode
  decide

end NextKey
