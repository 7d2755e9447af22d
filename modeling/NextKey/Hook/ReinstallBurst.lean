import Mathlib.Algebra.Group.Nat.Defs
import Mathlib.Data.List.Induction
import Mathlib.Logic.Function.Basic
import Mathlib.Order.Nat
import NextKey.Lib.Machine

/-!
# The reinstall burst

Model of `ReinstallBurstScheduler`, of its timers and of the transitions of the known hijacker in
`ApplyFocusOnHookThread` (`app/system/HookEngine.cpp`), and of the throttled reinstall in
`HookLifecycle::ThreadProc`, beside the chain of the low-level keyboard hooks, to which another program
may add its own at any time. A hook that is installed goes to the head of the chain and sees the keys
first. A callback of a timer looks at the generation and posts in two steps, and the timers may be as
late as they like; that a timer cannot be created or a message not be posted, the mouse hook and the other
messages of the pump are left out.

When all of a burst is done, only hooks that came more than 1300 ms after the hijacker are above that of
the program (`burst_on_top`). Two reinstalls for one reason are never closer than its throttle
(`reinstall_spacing`), and a timer of an earlier burst posts nothing (`burst_in_front`).
-/

namespace NextKey

/-- The buckets of the throttle, after C++ `REINSTALL_REASON_*`. -/
inductive ReinstallReason where
  | chromium
  | java
  | hijack
  deriving DecidableEq

/-- `reasonIdx`: the bucket of a raw reason -/
def reasonIdx (rawReason : BitVec 64) : ReinstallReason :=
  if rawReason = 1 then .java else if rawReason = 2 then .hijack else .chromium

def kThrottleMs : ReinstallReason → BitVec 32
  | .chromium => 500
  | .java => 500
  | .hijack => 100

/-- A hook in the chain. -/
inductive ChainHook where
  | ours
  | rival (installedAt : Nat)
  deriving DecidableEq

/-- A timer of a burst, with what its callback has captured. -/
structure BurstTimer where
  due : Nat
  scheduledGen : BitVec 64
  reason : BitVec 64

/-- The scheduler, the queue of the hook thread, and the chain of hooks. -/
structure HookBurst where
  now : Nat
  generation : BitVec 64 := 0
  /-- Since when the foreground is a known hijacker: `isKnownHijackerApp_` -/
  hijackerSince : Option Nat := none
  timers : List BurstTimer := []
  /-- What callbacks that have looked at the generation are about to post. -/
  posting : List (BitVec 64) := []
  queue : List (BitVec 64) := []
  lastReinstallTime : ReinstallReason → BitVec 32 := fun _ => 0
  /-- The hooks, head first. -/
  chain : List ChainHook := [.ours]
  /-- The reinstalls so far, newest first. -/
  reinstalls : List (ReinstallReason × Nat) := []

/-- What happens in a run. -/
inductive BurstEvent where
  /-- The focus comes to a window, of a known hijacker or not. -/
  | focus (isKnownHijacker : Bool)
  /-- `PostReinstallHooks` by anybody else -/
  | PostReinstallHooks (reason : BitVec 64)
  /-- A timer calls back and looks at the generation. -/
  | fire (i : Nat)
  /-- A callback posts. -/
  | post (i : Nat)
  /-- The pump takes a message; `installs` tells whether `SetWindowsHookExW` succeeds. -/
  | pump (installs : Bool)
  /-- Another program installs a hook. -/
  | rival
  | elapse (ms : Nat)

namespace HookBurst

variable (s : HookBurst)

/-- `GetTickCount` -/
def GetTickCount (now : Nat) : BitVec 32 := BitVec.ofNat 32 now

/-- C++ `ReinstallBurstScheduler::Schedule` -/
def Schedule (reason : BitVec 64) (delaysMs : List Nat) : HookBurst :=
  { s with timers := s.timers ++ delaysMs.map fun delay => ⟨s.now + delay, s.generation, reason⟩ }

/-- C++ `ReinstallBurstScheduler::Cancel` -/
def Cancel : HookBurst := { s with generation := s.generation + 1 }

/-- The burst for a known hijacker. -/
def kBurstDelaysMs : List Nat := [600, 1200, 1800]

/-- A change of the known hijacker in C++ `ApplyFocusOnHookThread` -/
def applyFocus (isKnownHijacker : Bool) : HookBurst :=
  if s.hijackerSince.isSome = isKnownHijacker then s
  else if isKnownHijacker then { s.Cancel with hijackerSince := some s.now }.Schedule 0 kBurstDelaysMs
  else { s.Cancel with hijackerSince := none }

/-- `sinceLast < throttle`, behind an earlier reinstall -/
def Throttled (reason : ReinstallReason) : Prop :=
  s.lastReinstallTime reason ≠ 0 ∧ GetTickCount s.now - s.lastReinstallTime reason < kThrottleMs reason

instance (reason : ReinstallReason) : Decidable (s.Throttled reason) :=
  inferInstanceAs (Decidable (_ ∧ _))

/-- A reinstall that is not skipped. -/
def install (reason : ReinstallReason) (installs : Bool) : HookBurst :=
  { s with
    lastReinstallTime := Function.update s.lastReinstallTime reason (GetTickCount s.now)
    chain := if installs then .ours :: s.chain.erase .ours else s.chain.erase .ours
    reinstalls := (reason, s.now) :: s.reinstalls }

/-- `WM_APP_REINSTALL_HOOKS` in C++ `HookLifecycle::ThreadProc` -/
def reinstall (rawReason : BitVec 64) (installs : Bool) : HookBurst :=
  if s.Throttled (reasonIdx rawReason) then s else s.install (reasonIdx rawReason) installs

/-- One event. -/
def step : BurstEvent → HookBurst
  | .focus isKnownHijacker => s.applyFocus isKnownHijacker
  | .PostReinstallHooks reason => { s with queue := s.queue ++ [reason] }
  | .fire i =>
    match s.timers[i]? with
    | some timer =>
      if timer.due ≤ s.now then
        { s with
          timers := s.timers.eraseIdx i
          posting :=
            if timer.scheduledGen = s.generation then s.posting ++ [timer.reason] else s.posting }
      else s
    | none => s
  | .post i =>
    match s.posting[i]? with
    | some reason => { s with posting := s.posting.eraseIdx i, queue := s.queue ++ [reason] }
    | none => s
  | .pump installs =>
    match s.queue with
    | reason :: queue => { s with queue }.reinstall reason installs
    | [] => s
  | .rival => { s with chain := .rival s.now :: s.chain }
  | .elapse ms => { s with now := s.now + ms }

end HookBurst

/-- A run that starts at a time, with the hook installed. -/
abbrev burstRun (now : Nat) (events : List BurstEvent) : HookBurst :=
  Machine.run HookBurst.step { now } events

namespace HookBurst

/-- The hook is in the chain, and what is above it was installed at a time or later. -/
def OnTop (since : Nat) (chain : List ChainHook) : Prop :=
  ∃ above below, chain = above ++ .ours :: below ∧ ∀ h ∈ above, ∃ t, h = .rival t ∧ since ≤ t

/-- No callback of the burst is to come, and no message waits. -/
def Done (s : HookBurst) : Prop :=
  (∀ timer ∈ s.timers, timer.scheduledGen ≠ s.generation) ∧ s.posting = [] ∧ s.queue = []

section Chain

variable {s : HookBurst} {e : BurstEvent} {since start t : Nat} {chain : List ChainHook}

/-- A hook that was just installed is on top. -/
lemma onTop_install : OnTop since (.ours :: chain) := ⟨[], chain, rfl, nofun⟩

/-- A late rival may come on top. -/
lemma OnTop.rival (h : OnTop since chain) (ht : since ≤ t) : OnTop since (.rival t :: chain) := by
  obtain ⟨above, below, rfl, habove⟩ := h
  exact ⟨.rival t :: above, below, rfl, List.forall_mem_cons.2 ⟨⟨t, rfl, ht⟩, habove⟩⟩

/-- An earlier time asks for less. -/
lemma OnTop.mono {since' : Nat} (h : OnTop since chain) (hle : since' ≤ since) :
    OnTop since' chain := by
  obtain ⟨above, below, rfl, habove⟩ := h
  exact ⟨above, below, rfl, fun h hh => (habove h hh).imp fun _ ht => ⟨ht.1, hle.trans ht.2⟩⟩

/-- A reinstall takes no time. -/
lemma now_reinstall {rawReason : BitVec 64} {installs : Bool} :
    (s.reinstall rawReason installs).now = s.now := by
  unfold reinstall
  split <;> rfl

/-- Time does not go back. -/
lemma now_le_step : s.now ≤ (s.step e).now := by
  cases e with
  | focus isKnownHijacker =>
    simp only [step, applyFocus]
    split
    · exact le_rfl
    · split <;> exact le_rfl
  | PostReinstallHooks reason => exact le_rfl
  | fire i =>
    simp only [step]
    split
    · split <;> exact le_rfl
    · exact le_rfl
  | post i =>
    simp only [step]
    split <;> exact le_rfl
  | pump installs =>
    simp only [step]
    split
    · next reason queue hqueue => exact (@now_reinstall { s with queue } reason installs).ge
    · exact le_rfl
  | rival => exact le_rfl
  | elapse ms => exact Nat.le_add_right _ _

/-- While the clock has not come round, a small difference of ticks is one of times. -/
lemma sub_lt_of_tick {now t : Nat} {ms : BitVec 32} (hle : t ≤ now) (htime : now < t + 2 ^ 32)
    (h : GetTickCount now - GetTickCount t < ms) : now - t < ms.toNat := by
  unfold GetTickCount at h
  bv_omega

/-- Ticks that are far apart belong to times that are. -/
lemma le_sub_of_tick {now t : Nat} {ms : BitVec 32} (hle : t ≤ now)
    (h : ¬GetTickCount now - GetTickCount t < ms) : ms.toNat ≤ now - t := by
  unfold GetTickCount at h
  bv_omega

/-- The last reinstall for a reason put the hook on top. -/
def Served (s : HookBurst) (start : Nat) (reason : ReinstallReason) : Prop :=
  s.lastReinstallTime reason ≠ 0 →
    ∃ t, start ≤ t ∧ t ≤ s.now ∧ s.lastReinstallTime reason = GetTickCount t ∧ OnTop t s.chain

/-- Behind its foreground, the last step of a burst is a timer, a callback that is about to post, a
    message, or done. -/
def LastStep (s : HookBurst) (t : Nat) : Prop :=
  (∃ timer ∈ s.timers, timer.due = t + 1800 ∧ timer.scheduledGen = s.generation ∧
      reasonIdx timer.reason = .chromium) ∨
    t + 1800 ≤ s.now ∧
      ((∃ reason ∈ s.posting, reasonIdx reason = .chromium) ∨
        (∃ reason ∈ s.queue, reasonIdx reason = .chromium) ∨ OnTop (t + 1301) s.chain)

/-- What holds in a run in which every installation succeeds. -/
structure TopInv (s : HookBurst) (start : Nat) : Prop where
  start_le : start ≤ s.now
  served : ∀ reason, s.Served start reason
  burst : ∀ t, s.hijackerSince = some t → s.LastStep t

/-- A step that leaves the last timer of the burst. -/
lemma LastStep.frame {s' : HookBurst} (h : s.LastStep t)
    (htimers : ∀ timer ∈ s.timers, timer ∈ s'.timers) (hgeneration : s'.generation = s.generation)
    (hnow : s.now ≤ s'.now) (hposting : ∀ reason ∈ s.posting, reason ∈ s'.posting)
    (hqueue : ∀ reason ∈ s.queue, reason ∈ s'.queue) (hchain : s'.chain = s.chain) : s'.LastStep t := by
  obtain ⟨timer, hmem, hdue, hgen, hreason⟩ | ⟨hlate, hrest⟩ := h
  · exact .inl ⟨timer, htimers timer hmem, hdue, hgen.trans hgeneration.symm, hreason⟩
  · refine .inr ⟨hlate.trans hnow, hrest.imp ?_ (Or.imp ?_ ?_)⟩
    · exact fun ⟨reason, hmem, hreason⟩ => ⟨reason, hposting reason hmem, hreason⟩
    · exact fun ⟨reason, hmem, hreason⟩ => ⟨reason, hqueue reason hmem, hreason⟩
    · exact fun htop => hchain ▸ htop

/-- A step that leaves the last reinstall. -/
lemma Served.frame {s' : HookBurst} {reason : ReinstallReason} (h : s.Served start reason)
    (hlast : s'.lastReinstallTime reason = s.lastReinstallTime reason) (hnow : s.now ≤ s'.now)
    (hchain : s'.chain = s.chain) : s'.Served start reason := by
  intro hne
  rw [hlast] at hne ⊢
  rw [hchain]
  exact (h hne).imp fun t ht => ⟨ht.1, ht.2.1.trans hnow, ht.2.2⟩

/-- An entry is the one that is taken out, or is left. -/
lemma mem_or_mem_eraseIdx {α : Type*} {l : List α} {i : Nat} {a b : α} (ha : l[i]? = some a)
    (hb : b ∈ l) : b = a ∨ b ∈ l.eraseIdx i := by
  obtain ⟨j, hj⟩ := List.mem_iff_getElem?.1 hb
  by_cases hij : j = i
  · subst hij
    exact .inl (Option.some.inj (hj.symm.trans ha))
  · exact .inr (List.mem_eraseIdx_iff_getElem?.2 ⟨j, hij, hj⟩)

/-- A focus change. -/
lemma TopInv.applyFocus {isKnownHijacker : Bool} (h : s.TopInv start) :
    (s.applyFocus isKnownHijacker).TopInv start := by
  unfold HookBurst.applyFocus
  split
  · exact h
  · split
    · refine ⟨h.start_le, fun reason => (h.served reason).frame rfl le_rfl rfl, fun t ht => .inl ?_⟩
      obtain rfl : s.now = t := Option.some.inj ht
      refine ⟨⟨s.now + 1800, s.generation + 1, 0⟩, ?_, rfl, rfl, rfl⟩
      simp [Schedule, kBurstDelaysMs, Cancel]
    · exact ⟨h.start_le, fun reason => (h.served reason).frame rfl le_rfl rfl, nofun⟩

/-- A timer fires. -/
lemma TopInv.fire {i : Nat} (h : s.TopInv start) : (s.step (.fire i)).TopInv start := by
  simp only [step]
  split
  · next timer htimer =>
    split
    · next hdue =>
      refine ⟨h.start_le, fun reason => (h.served reason).frame rfl le_rfl rfl, fun t ht => ?_⟩
      obtain ⟨last, hmem, hlast, hgen, hreason⟩ | ⟨hlate, hrest⟩ := h.burst t ht
      · obtain rfl | hkept := mem_or_mem_eraseIdx htimer hmem
        · refine .inr ⟨hlast ▸ hdue, .inl ⟨last.reason, ?_, hreason⟩⟩
          simp [hgen]
        · exact .inl ⟨last, hkept, hlast, hgen, hreason⟩
      · refine .inr ⟨hlate, hrest.imp_left fun ⟨reason, hmem, hreason⟩ => ⟨reason, ?_, hreason⟩⟩
        dsimp only
        split
        · exact List.mem_append_left _ hmem
        · exact hmem
    · exact h
  · exact h

/-- A callback posts. -/
lemma TopInv.post {i : Nat} (h : s.TopInv start) : (s.step (.post i)).TopInv start := by
  simp only [step]
  split
  · next reason hposting =>
    refine ⟨h.start_le, fun reason => (h.served reason).frame rfl le_rfl rfl, fun t ht => ?_⟩
    obtain hlast | ⟨hlate, ⟨other, hmem, hother⟩ | ⟨other, hmem, hother⟩ | htop⟩ := h.burst t ht
    · exact .inl hlast
    · obtain rfl | hkept := mem_or_mem_eraseIdx hposting hmem
      · exact .inr ⟨hlate, .inr (.inl ⟨other, by simp, hother⟩)⟩
      · exact .inr ⟨hlate, .inl ⟨other, hkept, hother⟩⟩
    · exact .inr ⟨hlate, .inr (.inl ⟨other, List.mem_append_left _ hmem, hother⟩)⟩
    · exact .inr ⟨hlate, .inr (.inr htop)⟩
  · exact h

/-- A message is served, or its reason was shortly before. -/
lemma TopInv.pump (h : s.TopInv start) (htime : s.now < start + 2 ^ 32) :
    (s.step (.pump true)).TopInv start := by
  simp only [step]
  split
  · next reason queue hqueue =>
    unfold reinstall
    split
    · next hthrottled =>
      obtain ⟨hlast, hlt⟩ := hthrottled
      refine ⟨h.start_le, fun reason => (h.served reason).frame rfl le_rfl rfl, fun t ht => ?_⟩
      obtain hlast' | ⟨hlate, hposting | ⟨other, hmem, hother⟩ | htop⟩ := h.burst t ht
      · exact .inl hlast'
      · exact .inr ⟨hlate, .inl hposting⟩
      · rw [hqueue] at hmem
        obtain rfl | hkept := List.mem_cons.1 hmem
        · obtain ⟨t', hstart, hle, htick, htop⟩ := h.served _ hlast
          dsimp only at hlt
          rw [htick, hother] at hlt
          have hshort : s.now - t' < 500 := sub_lt_of_tick hle (by omega) hlt
          exact .inr ⟨hlate, .inr (.inr (htop.mono (by omega)))⟩
        · exact .inr ⟨hlate, .inr (.inl ⟨other, hkept, hother⟩)⟩
      · exact .inr ⟨hlate, .inr (.inr htop)⟩
    · refine ⟨h.start_le, fun other hother => ?_, fun t ht => ?_⟩
      · by_cases hsame : other = reasonIdx reason
        · subst hsame
          exact ⟨s.now, h.start_le, le_rfl, Function.update_self .., onTop_install⟩
        · have hlast : (install { s with queue } (reasonIdx reason) true).lastReinstallTime other =
              s.lastReinstallTime other := Function.update_of_ne hsame ..
          rw [hlast] at hother ⊢
          exact (h.served other hother).imp fun t' ht' => ⟨ht'.1, ht'.2.1, ht'.2.2.1, onTop_install⟩
      · exact (h.burst t ht).imp id fun hlate => ⟨hlate.1, .inr (.inr onTop_install)⟩
  · exact h

/-- What every event preserves. -/
lemma TopInv.step (h : s.TopInv start) (htime : s.now < start + 2 ^ 32)
    (he : ∀ installs, e = .pump installs → installs = true) :
    (s.step e).TopInv start := by
  cases e with
  | focus isKnownHijacker => exact h.applyFocus
  | PostReinstallHooks reason =>
    refine ⟨h.start_le, fun reason => (h.served reason).frame rfl le_rfl rfl, fun t ht => ?_⟩
    exact (h.burst t ht).frame (fun _ => id) rfl le_rfl (fun _ => id)
      (fun _ => List.mem_append_left _) rfl
  | fire i => exact h.fire
  | post i => exact h.post
  | pump installs =>
    obtain rfl := he installs rfl
    exact h.pump htime
  | rival =>
    refine ⟨h.start_le, fun reason hlast => ?_, fun t ht => ?_⟩
    · exact (h.served reason hlast).imp fun t' ht' =>
        ⟨ht'.1, ht'.2.1, ht'.2.2.1, ht'.2.2.2.rival ht'.2.1⟩
    · exact (h.burst t ht).imp id fun hlate => ⟨hlate.1, hlate.2.imp_right (Or.imp_right fun htop =>
        htop.rival (by have := hlate.1; omega))⟩
  | elapse ms =>
    refine ⟨h.start_le.trans (Nat.le_add_right _ _),
      fun reason => (h.served reason).frame rfl (Nat.le_add_right _ _) rfl, fun t ht => ?_⟩
    exact (h.burst t ht).frame (fun _ => id) rfl (Nat.le_add_right _ _) (fun _ => id) (fun _ => id) rfl

end Chain

/-- When a known hijacker is in front and its burst is done, every hook above that of the program came
more than 1300 ms after the hijacker, in a run of less than `2 ^ 32` ms in which every installation
succeeds. -/
theorem burst_on_top {now t : Nat} {events : List BurstEvent}
    (hinstalls : ∀ installs, .pump installs ∈ events → installs = true)
    (htime : (burstRun now events).now < now + 2 ^ 32)
    (hfront : (burstRun now events).hijackerSince = some t) (hdone : (burstRun now events).Done) :
    OnTop (t + 1301) (burstRun now events).chain := by
  have hok : Machine.Guarded step (fun _ e => ∀ installs, e = .pump installs → installs = true)
      { now } events :=
    Machine.guarded_of_forall fun e he _ installs h => hinstalls installs (h ▸ he)
  let Inv : HookBurst → Prop := fun s => s.now < now + 2 ^ 32 → s.TopInv now
  have hinv : Inv (burstRun now events) := by
    refine hok.invariant ?_ ?_
    · exact fun _ => ⟨le_rfl, fun _ hlast => absurd rfl hlast, nofun⟩
    · intro s e h hok htime
      have htime' : s.now < now + 2 ^ 32 := lt_of_le_of_lt now_le_step htime
      exact (h htime').step htime' hok
  obtain ⟨timer, hmem, -, hgen, -⟩ | ⟨-, ⟨reason, hmem, -⟩ | ⟨reason, hmem, -⟩ | h⟩ :=
    (hinv htime).burst t hfront
  · exact absurd hgen (hdone.1 timer hmem)
  · rw [hdone.2.1] at hmem
    cases hmem
  · rw [hdone.2.2] at hmem
    cases hmem
  · exact h

/-- One step of a burst: its timer, the message and the reinstall. -/
def burstStep : List BurstEvent := [.elapse 600, .fire 0, .post 0, .pump true]

/-- The rival comes between the first step and the second. -/
def rivalRun : List BurstEvent := .focus true :: burstStep ++ .rival :: burstStep ++ burstStep

/-- A rival that comes during a burst. -/
theorem burst_on_top_rivalRun :
    (burstRun 1000 rivalRun).chain = [.ours, .rival 1600] ∧ OnTop 2301 (burstRun 1000 rivalRun).chain :=
  ⟨rfl, @burst_on_top 1000 1000 rivalRun (by simp [rivalRun, burstStep]) (by decide) rfl
    ⟨fun _ h => (List.not_mem_nil h).elim, rfl, rfl⟩⟩

section Spacing

variable {s : HookBurst} {e : BurstEvent}

/-- The last reinstall for the reason of another is that one, or later by the throttle. -/
def LastIs (s : HookBurst) (reason : ReinstallReason) (t : Nat) : Prop :=
  ∃ last, s.lastReinstallTime reason = GetTickCount last ∧ t ≤ last ∧ last ≤ s.now ∧
    (t = last ∨ (GetTickCount t ≠ 0 → (kThrottleMs reason).toNat ≤ last - t))

/-- Two reinstalls for one reason, the later one first. -/
def Apart (later earlier : ReinstallReason × Nat) : Prop :=
  later.1 = earlier.1 → GetTickCount earlier.2 ≠ 0 → (kThrottleMs later.1).toNat ≤ later.2 - earlier.2

/-- What holds of the reinstalls of a run. -/
structure SpacingInv (s : HookBurst) : Prop where
  last : ∀ entry ∈ s.reinstalls, s.LastIs entry.1 entry.2
  apart : s.reinstalls.Pairwise Apart

/-- A step that leaves the time of the last reinstall. -/
lemma LastIs.frame {s' : HookBurst} {reason : ReinstallReason} {t : Nat} (h : s.LastIs reason t)
    (hlast : s'.lastReinstallTime = s.lastReinstallTime) (hnow : s.now ≤ s'.now) :
    s'.LastIs reason t := by
  obtain ⟨last, htick, hle, hlate, hrest⟩ := h
  exact ⟨last, hlast ▸ htick, hle, hlate.trans hnow, hrest⟩

/-- A step without a reinstall. -/
lemma SpacingInv.frame {s' : HookBurst} (h : s.SpacingInv) (hreinstalls : s'.reinstalls = s.reinstalls)
    (hlast : s'.lastReinstallTime = s.lastReinstallTime) (hnow : s.now ≤ s'.now) : s'.SpacingInv := by
  refine ⟨?_, hreinstalls ▸ h.apart⟩
  rw [hreinstalls]
  exact fun entry hentry => (h.last entry hentry).frame hlast hnow

/-- A reinstall keeps its distance. -/
lemma SpacingInv.reinstall {rawReason : BitVec 64} {installs : Bool} (h : s.SpacingInv) :
    (s.reinstall rawReason installs).SpacingInv := by
  unfold HookBurst.reinstall
  split
  · exact h
  · next hwait =>
    -- every earlier reinstall for this reason is as far back as the throttle asks
    have hfar : ∀ t, (reasonIdx rawReason, t) ∈ s.reinstalls → GetTickCount t ≠ 0 →
        t ≤ s.now ∧ (kThrottleMs (reasonIdx rawReason)).toNat ≤ s.now - t := by
      intro t ht hne
      obtain ⟨last, htick, hle, hlate, hrest⟩ := h.last _ ht
      dsimp only at htick hle hrest
      obtain rfl | hrest := hrest
      · exact ⟨hlate, le_sub_of_tick hlate fun hlt => hwait ⟨htick ▸ hne, htick ▸ hlt⟩⟩
      · have := hrest hne
        omega
    have hapart : ∀ earlier ∈ s.reinstalls, Apart (reasonIdx rawReason, s.now) earlier := by
      rintro ⟨reason, t⟩ hearlier hreason hne
      obtain rfl : reasonIdx rawReason = reason := hreason
      exact (hfar t hearlier hne).2
    refine ⟨fun entry hentry => ?_, List.pairwise_cons.2 ⟨hapart, h.apart⟩⟩
    · obtain rfl | hold := List.mem_cons.1 hentry
      · exact ⟨s.now, Function.update_self .., le_rfl, le_rfl, .inl rfl⟩
      · by_cases hsame : entry.1 = reasonIdx rawReason
        · obtain ⟨last, -, hle, hlate, -⟩ := h.last _ hold
          refine ⟨s.now, hsame ▸ Function.update_self .., hle.trans hlate, le_rfl, .inr fun hne => ?_⟩
          rw [hsame]
          exact (hfar entry.2 (hsame ▸ hold) hne).2
        · obtain ⟨last, htick, hrest⟩ := h.last _ hold
          exact ⟨last, (Function.update_of_ne hsame ..).trans htick, hrest⟩

/-- What every event preserves. -/
lemma SpacingInv.step (h : s.SpacingInv) : (s.step e).SpacingInv := by
  cases e with
  | focus isKnownHijacker =>
    simp only [HookBurst.step, HookBurst.applyFocus]
    split
    · exact h
    · split <;> exact h.frame rfl rfl le_rfl
  | PostReinstallHooks reason => exact h.frame rfl rfl le_rfl
  | fire i =>
    simp only [HookBurst.step]
    split
    · split
      · exact h.frame rfl rfl le_rfl
      · exact h
    · exact h
  | post i =>
    simp only [HookBurst.step]
    split
    · exact h.frame rfl rfl le_rfl
    · exact h
  | pump installs =>
    simp only [HookBurst.step]
    split
    · next reason queue hqueue =>
      have hframe : SpacingInv { s with queue } := h.frame rfl rfl le_rfl
      exact hframe.reinstall
    · exact h
  | rival => exact h.frame rfl rfl le_rfl
  | elapse ms => exact h.frame rfl rfl (Nat.le_add_right _ _)

end Spacing

/-- Two reinstalls for one reason are never closer than its throttle, unless the earlier one was at
tick 0. -/
theorem reinstall_spacing {now t t' : Nat} {events : List BurstEvent} {reason : ReinstallReason}
    {newer older : List (ReinstallReason × Nat)}
    (hlog : (burstRun now events).reinstalls = newer ++ (reason, t') :: older)
    (hmem : (reason, t) ∈ older) (htick : GetTickCount t ≠ 0) :
    (kThrottleMs reason).toNat ≤ t' - t := by
  have hinv : (burstRun now events).SpacingInv :=
    Machine.run_invariant ⟨by simp, List.Pairwise.nil⟩ SpacingInv.step
  have hapart := hinv.apart
  rw [hlog] at hapart
  exact List.rel_of_pairwise_cons (List.pairwise_append.1 hapart).2.1 hmem rfl htick

/-- The reinstalls of one burst. -/
theorem reinstall_spacing_rivalRun :
    (burstRun 1000 rivalRun).reinstalls = [(.chromium, 2800), (.chromium, 2200), (.chromium, 1600)] ∧
      (kThrottleMs .chromium).toNat ≤ 2800 - 1600 :=
  ⟨rfl, @reinstall_spacing 1000 1600 2800 rivalRun .chromium [] [(.chromium, 2200), (.chromium, 1600)]
    rfl (by simp) (by decide)⟩

section Front

variable {now : Nat} {events : List BurstEvent} {e : BurstEvent} {timer : BurstTimer} {t : Nat}

/-- A timer of the burst that was scheduled when a known hijacker came to the front at some time. -/
def Scheduled (now : Nat) (events : List BurstEvent) (timer : BurstTimer) (t : Nat) : Prop :=
  ∃ before after, events = before ++ .focus true :: after ∧
    (burstRun now before).hijackerSince = none ∧ (burstRun now before).now = t ∧
    ∃ delay ∈ kBurstDelaysMs, timer = ⟨t + delay, (burstRun now before).generation + 1, 0⟩

/-- What holds of the timers while the counter has not come round. -/
structure FrontInv (now : Nat) (events : List BurstEvent) : Prop where
  generation_le : (burstRun now events).generation.toNat ≤ events.length
  old : ∀ timer ∈ (burstRun now events).timers,
    timer.scheduledGen.toNat ≤ (burstRun now events).generation.toNat
  live : ∀ timer ∈ (burstRun now events).timers,
    timer.scheduledGen = (burstRun now events).generation →
      ∃ t, (burstRun now events).hijackerSince = some t ∧ Scheduled now events timer t

/-- The last step of a run. -/
lemma burstRun_snoc : burstRun now (events ++ [e]) = (burstRun now events).step e := Machine.run_append

/-- What was scheduled stays scheduled. -/
lemma Scheduled.snoc (h : Scheduled now events timer t) : Scheduled now (events ++ [e]) timer t := by
  obtain ⟨before, after, rfl, hrest⟩ := h
  exact ⟨before, after ++ [e], by simp, hrest⟩

/-- An event that leaves the generation and the hijacker and schedules nothing. -/
lemma FrontInv.frame (h : FrontInv now events)
    (hgeneration : ((burstRun now events).step e).generation = (burstRun now events).generation)
    (hsince : ((burstRun now events).step e).hijackerSince = (burstRun now events).hijackerSince)
    (htimers : ∀ timer ∈ ((burstRun now events).step e).timers, timer ∈ (burstRun now events).timers) :
    FrontInv now (events ++ [e]) := by
  refine ⟨?_, fun timer ht => ?_, fun timer ht hgen => ?_⟩
  · rw [burstRun_snoc, hgeneration, List.length_append]
    exact h.generation_le.trans (Nat.le_add_right _ _)
  · rw [burstRun_snoc] at ht ⊢
    rw [hgeneration]
    exact h.old timer (htimers timer ht)
  · rw [burstRun_snoc] at ht hgen ⊢
    rw [hsince]
    obtain ⟨t, hfront, hscheduled⟩ := h.live timer (htimers timer ht) (hgen.trans hgeneration)
    exact ⟨t, hfront, hscheduled.snoc⟩

/-- A cancelled timer stays cancelled while the counter has not come round. -/
lemma FrontInv.toNat_cancel (h : FrontInv now events) (hlen : events.length + 1 < 2 ^ 64) :
    ((burstRun now events).generation + 1).toNat = (burstRun now events).generation.toNat + 1 := by
  have := h.generation_le
  bv_omega

/-- A timer that is there is older than the generation after the next cancellation. -/
lemma FrontInv.lt_cancel (h : FrontInv now events) (hlen : events.length + 1 < 2 ^ 64)
    (ht : timer ∈ (burstRun now events).timers) :
    timer.scheduledGen.toNat < ((burstRun now events).generation + 1).toNat := by
  rw [h.toNat_cancel hlen]
  exact Nat.lt_succ_of_le (h.old timer ht)

/-- A change of the hijacker cancels all timers, and its arrival schedules three. -/
lemma FrontInv.focus {isKnownHijacker : Bool} (h : FrontInv now events)
    (hlen : events.length + 1 < 2 ^ 64) : FrontInv now (events ++ [.focus isKnownHijacker]) := by
  have hgeneration : ((burstRun now events).generation + 1).toNat ≤ events.length + 1 := by
    rw [h.toNat_cancel hlen]
    exact Nat.succ_le_succ h.generation_le
  by_cases hsame : (burstRun now events).hijackerSince.isSome = isKnownHijacker
  · have hstep : (burstRun now events).step (.focus isKnownHijacker) = burstRun now events :=
      if_pos hsame
    exact h.frame (by rw [hstep]) (by rw [hstep]) fun timer ht => by rwa [hstep] at ht
  · cases isKnownHijacker with
    | true =>
      have hnone : (burstRun now events).hijackerSince = none := by
        rwa [← Option.not_isSome_iff_eq_none]
      have hstep : (burstRun now events).step (.focus true) =
          { (burstRun now events).Cancel with hijackerSince := some (burstRun now events).now }.Schedule 0
            kBurstDelaysMs := if_neg hsame
      refine ⟨?_, fun timer ht => ?_, fun timer ht hgen => ?_⟩
      · rw [burstRun_snoc, hstep, List.length_append]
        exact hgeneration
      · rw [burstRun_snoc, hstep] at ht ⊢
        obtain hold | hnew := List.mem_append.1 ht
        · exact (h.lt_cancel hlen hold).le
        · obtain ⟨delay, -, rfl⟩ := List.mem_map.1 hnew
          exact le_rfl
      · rw [burstRun_snoc, hstep] at ht hgen ⊢
        obtain hold | hnew := List.mem_append.1 ht
        · exact absurd (congrArg BitVec.toNat hgen) (h.lt_cancel hlen hold).ne
        · obtain ⟨delay, hdelay, rfl⟩ := List.mem_map.1 hnew
          exact ⟨_, rfl, events, [], rfl, hnone, rfl, delay, hdelay, rfl⟩
    | false =>
      have hstep : (burstRun now events).step (.focus false) =
          { (burstRun now events).Cancel with hijackerSince := none } := if_neg hsame
      refine ⟨?_, fun timer ht => ?_, fun timer ht hgen => ?_⟩
      · rw [burstRun_snoc, hstep, List.length_append]
        exact hgeneration
      · rw [burstRun_snoc, hstep] at ht ⊢
        exact (h.lt_cancel hlen ht).le
      · rw [burstRun_snoc, hstep] at ht hgen
        exact absurd (congrArg BitVec.toNat hgen) (h.lt_cancel hlen ht).ne

/-- One event. -/
lemma FrontInv.snoc (h : FrontInv now events) (hlen : events.length + 1 < 2 ^ 64) :
    FrontInv now (events ++ [e]) := by
  cases e with
  | focus isKnownHijacker => exact h.focus hlen
  | PostReinstallHooks reason => exact h.frame rfl rfl fun _ => id
  | fire i =>
    refine h.frame ?_ ?_ fun timer ht => ?_
    · simp only [HookBurst.step]
      split
      · split <;> rfl
      · rfl
    · simp only [HookBurst.step]
      split
      · split <;> rfl
      · rfl
    · simp only [HookBurst.step] at ht
      split at ht
      · split at ht
        · exact List.mem_of_mem_eraseIdx ht
        · exact ht
      · exact ht
  | post i =>
    refine h.frame ?_ ?_ fun timer ht => ?_
    · simp only [HookBurst.step]
      split <;> rfl
    · simp only [HookBurst.step]
      split <;> rfl
    · simp only [HookBurst.step] at ht
      split at ht <;> exact ht
  | pump installs =>
    have hsame : ((burstRun now events).step (.pump installs)).generation =
          (burstRun now events).generation ∧
        ((burstRun now events).step (.pump installs)).hijackerSince =
          (burstRun now events).hijackerSince ∧
        ((burstRun now events).step (.pump installs)).timers = (burstRun now events).timers := by
      simp only [HookBurst.step]
      split
      · unfold HookBurst.reinstall
        split <;> exact ⟨rfl, rfl, rfl⟩
      · exact ⟨rfl, rfl, rfl⟩
    exact h.frame hsame.1 hsame.2.1 fun timer ht => hsame.2.2 ▸ ht
  | rival => exact h.frame rfl rfl fun _ => id
  | elapse ms => exact h.frame rfl rfl fun _ => id

/-- Fewer than 2^64 events do not bring the counter round. -/
lemma frontInv_run (hlen : events.length < 2 ^ 64) : FrontInv now events := by
  induction events using List.reverseRecOn with
  | nil => exact ⟨le_rfl, nofun, nofun⟩
  | append_singleton events e ih =>
    rw [List.length_append, List.length_singleton] at hlen
    exact (ih (Nat.lt_of_succ_lt hlen)).snoc hlen

end Front

/-- The timer whose callback goes on to post is one that was scheduled when the hijacker that is in front
came there, and it is due. -/
theorem burst_in_front {now i : Nat} {events : List BurstEvent} (hlen : events.length < 2 ^ 64)
    (hposts : ((burstRun now events).step (.fire i)).posting ≠ (burstRun now events).posting) :
    ∃ timer t, (burstRun now events).timers[i]? = some timer ∧
      timer.scheduledGen = (burstRun now events).generation ∧
      (burstRun now events).hijackerSince = some t ∧ Scheduled now events timer t ∧
      timer.due ≤ (burstRun now events).now := by
  simp only [step] at hposts
  split at hposts
  · next timer htimer =>
    have hmem : timer ∈ (burstRun now events).timers := List.mem_of_getElem? htimer
    split at hposts
    · next hdue =>
      dsimp only at hposts
      split at hposts
      · next hgen =>
        obtain ⟨t, hfront, hscheduled⟩ := (frontInv_run hlen).live timer hmem hgen
        exact ⟨timer, t, htimer, hgen, hfront, hscheduled, hdue⟩
      · exact absurd rfl hposts
    · exact absurd rfl hposts
  · exact absurd rfl hposts

/-- The first timer of a burst. -/
theorem burst_in_front_first :
    ∃ timer t, (burstRun 1000 [.focus true, .elapse 600]).timers[0]? = some timer ∧
      timer.scheduledGen = (burstRun 1000 [.focus true, .elapse 600]).generation ∧
      (burstRun 1000 [.focus true, .elapse 600]).hijackerSince = some t ∧
      Scheduled 1000 [.focus true, .elapse 600] timer t ∧
      timer.due ≤ (burstRun 1000 [.focus true, .elapse 600]).now :=
  @burst_in_front 1000 0 [.focus true, .elapse 600] (by decide) (by decide)

end HookBurst

end NextKey
