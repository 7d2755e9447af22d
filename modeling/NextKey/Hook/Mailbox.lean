import Mathlib.Logic.Function.Basic
import Mathlib.Tactic.ByContra
import Mathlib.Tactic.Lemma
import NextKey.Lib.Machine

/-!
# The hook command mailbox

Model of `Post`, `DrainBits` and `ConsumePendingFocus` in `app/system/HookCommandMailbox.cpp` and of
`HookEngine::DrainHookCommands`. Producers on other threads set a command bit, and the hook thread
takes all bits at once, on a wake message or before it handles a key. Every access to an atomic is a
step, and the steps of all threads interleave in any order. Posting the wake message succeeds.

The wake latch is set after the bit and cleared before the bits are taken, so no bit is stranded: it is
returned by the next exchange, and that one is on its way (`bits_returned`). The focus snapshot
travels apart from its bit and can be taken with the bit of an earlier post (`focus_null`).
-/

namespace NextKey

namespace HookCommand

def kFocusChanged : BitVec 32 := 0x01
def kConfigApply : BitVec 32 := 0x02
def kTickPoll : BitVec 32 := 0x04
def kToggleVN : BitVec 32 := 0x08

end HookCommand

/-- Whether a word of command bits has a command. -/
def hasCommand (bits command : BitVec 32) : Bool := bits &&& command != 0

/-- What the commands do on the hook thread, to its state `σ` with focus snapshots `φ`. -/
structure Handlers (φ σ : Type) where
  ApplyFocusOnHookThread : Option φ → σ → σ
  ApplyTickPollOnHookThread : σ → σ
  ApplyToggleVNOnHookThread : σ → σ
  ApplyConfigOnHookThread : σ → σ
  /-- `engine_->Count() == 0` -/
  engineEmpty : σ → Bool

/-- Where a producer stands in `Post`. -/
inductive Post (φ : Type) where
  | idle
  | store (bit : BitVec 32) (cls : φ)
  | setBit (bit : BitVec 32)
  | testWake
  | postWake

/-- Where the hook thread stands in `DrainHookCommands`. -/
inductive Drain where
  | idle
  | clearWake
  | exchange
  | dispatch (bits : BitVec 32)

/-- What happened to the mailbox. -/
inductive MailboxEntry (φ : Type) where
  | stored (cls : φ)
  | posted (bit : BitVec 32)
  | cleared
  | drained (bits : BitVec 32)
  | consumed (cls : Option φ)

/-- The mailbox (C++ `HookCommandMailbox`), its producers `π` and the hook thread. -/
structure Mailbox (φ σ π : Type) where
  bits : BitVec 32
  pendingFocus : Option φ
  wakePosted : Bool
  /-- The wake messages in the queue of the hook thread. -/
  wakes : Nat
  producer : π → Post φ
  drain : Drain
  deferredConfigApply : Bool
  hook : σ
  /-- What happened so far, the last first. -/
  log : List (MailboxEntry φ)

/-- A producer begins a post or takes its next step; the hook thread takes a wake message, gets a key
    or takes its next step. -/
inductive MailboxEvent (φ π : Type) where
  | Post (p : π) (bit : BitVec 32) (cls : Option φ)
  | step (p : π)
  | wake
  | keydown
  | drain

namespace Mailbox

variable {φ σ π : Type}

/-- The mailbox before any post. -/
def init (hook : σ) : Mailbox φ σ π where
  bits := 0
  pendingFocus := none
  wakePosted := false
  wakes := 0
  producer _ := .idle
  drain := .idle
  deferredConfigApply := false
  hook := hook
  log := []

/-- The commands of a drain, in order (C++ `DrainHookCommands` after `DrainBits`). -/
def dispatch (h : Handlers φ σ) (s : Mailbox φ σ π) (bits : BitVec 32) : Mailbox φ σ π :=
  let focus := hasCommand bits HookCommand.kFocusChanged
  let deferred := s.deferredConfigApply || hasCommand bits HookCommand.kConfigApply
  let hook := if focus then h.ApplyFocusOnHookThread s.pendingFocus s.hook else s.hook
  let hook := if hasCommand bits HookCommand.kTickPoll then h.ApplyTickPollOnHookThread hook else hook
  let hook := if hasCommand bits HookCommand.kToggleVN then h.ApplyToggleVNOnHookThread hook else hook
  { s with
    pendingFocus := if focus then none else s.pendingFocus
    deferredConfigApply := deferred && !h.engineEmpty hook
    hook := if deferred && h.engineEmpty hook then h.ApplyConfigOnHookThread hook else hook
    drain := .idle
    log := if focus then .consumed s.pendingFocus :: s.log else s.log }

/-- One step of the hook thread in a drain. -/
def stepDrain (h : Handlers φ σ) (s : Mailbox φ σ π) : Mailbox φ σ π :=
  match s.drain with
  | .idle => s
  | .clearWake => { s with wakePosted := false, drain := .exchange, log := .cleared :: s.log }
  | .exchange => { s with bits := 0, drain := .dispatch s.bits, log := .drained s.bits :: s.log }
  | .dispatch bits => s.dispatch h bits

variable [DecidableEq π]

/-- One step of a producer in `Post`. -/
def stepPost (s : Mailbox φ σ π) (p : π) : Mailbox φ σ π :=
  match s.producer p with
  | .idle => s
  | .store bit cls =>
    { s with
      pendingFocus := some cls
      producer := Function.update s.producer p (.setBit bit)
      log := .stored cls :: s.log }
  | .setBit bit =>
    { s with
      bits := s.bits ||| bit
      producer := Function.update s.producer p .testWake
      log := .posted bit :: s.log }
  | .testWake =>
    { s with
      wakePosted := true
      producer := Function.update s.producer p (if s.wakePosted then .idle else .postWake) }
  | .postWake => { s with wakes := s.wakes + 1, producer := Function.update s.producer p .idle }

/-- One event; what is not where the event expects it leaves the state alone. -/
def step (h : Handlers φ σ) (s : Mailbox φ σ π) : MailboxEvent φ π → Mailbox φ σ π
  | .Post p bit cls =>
    match s.producer p, cls with
    | .idle, some cls => { s with producer := Function.update s.producer p (.store bit cls) }
    | .idle, none => { s with producer := Function.update s.producer p (.setBit bit) }
    | _, _ => s
  | .step p => s.stepPost p
  | .wake =>
    match s.drain, s.wakes with
    | .idle, n + 1 => { s with wakes := n, drain := .clearWake }
    | _, _ => s
  | .keydown =>
    match s.drain with
    | .idle => { s with drain := .clearWake }
    | _ => s
  | .drain => s.stepDrain h

/-- No post is in progress. -/
def NoPost (s : Mailbox φ σ π) : Prop := ∀ p, s.producer p = .idle

/-- No post and no drain is in progress, and no wake message is queued. -/
structure Quiescent (s : Mailbox φ σ π) : Prop where
  noPost : s.NoPost
  noDrain : s.drain = .idle
  noWake : s.wakes = 0

end Mailbox

/-- An interleaving of the steps of all threads. -/
def mailboxRun {φ σ π : Type} [DecidableEq π] (h : Handlers φ σ) (hook : σ)
    (events : List (MailboxEvent φ π)) : Mailbox φ σ π :=
  Machine.run (Mailbox.step h) (.init hook) events

/-- A wake message is queued, about to be posted, or being acted on. -/
def Mailbox.WakeComing {φ σ π : Type} (s : Mailbox φ σ π) : Prop :=
  0 < s.wakes ∨ (∃ p, s.producer p = .postWake) ∨ s.drain = .clearWake

/-- A drain is on its way: a wake message is, a producer has yet to test the latch, or a drain is
    about to take the bits. -/
def Mailbox.DrainComing {φ σ π : Type} (s : Mailbox φ σ π) : Prop :=
  s.WakeComing ∨ (∃ p, s.producer p = .testWake) ∨ s.drain = .exchange

/-- The bits posted since the last exchange. -/
def pendingBits {φ : Type} : List (MailboxEntry φ) → BitVec 32
  | [] => 0
  | .posted bit :: log => pendingBits log ||| bit
  | .drained _ :: _ => 0
  | _ :: log => pendingBits log

/-- Every exchange took the bits posted since the one before. -/
def Exchanged {φ : Type} : List (MailboxEntry φ) → Prop
  | [] => True
  | .drained bits :: log => bits = pendingBits log ∧ Exchanged log
  | _ :: log => Exchanged log

/-- What holds in every state. -/
structure WakeInv {φ σ π : Type} (s : Mailbox φ σ π) : Prop where
  latch : s.wakePosted → s.WakeComing
  bits : s.bits ≠ 0 → s.DrainComing
  pending : s.bits = pendingBits s.log
  exchanged : Exchanged s.log

section
variable {φ σ π : Type} {h : Handlers φ σ} {s : Mailbox φ σ π} {p : π}

/-- At the start. -/
lemma WakeInv.start {hook : σ} : WakeInv (Mailbox.init hook : Mailbox φ σ π) where
  latch hw := by cases hw
  bits hb := absurd rfl hb
  pending := rfl
  exchanged := trivial

/-- The hook thread takes a step. -/
lemma WakeInv.stepDrain (hinv : WakeInv s) : WakeInv (s.stepDrain h) := by
  obtain ⟨hlatch, hbits, hpending, hexchanged⟩ := hinv
  simp only [Mailbox.stepDrain]
  split
  · exact ⟨hlatch, hbits, hpending, hexchanged⟩
  · exact ⟨nofun, fun _ => .inr (.inr rfl), hpending, hexchanged⟩
  · next hd =>
    refine ⟨fun hw => ?_, fun hb => absurd rfl hb, rfl, hpending, hexchanged⟩
    obtain hwakes | hpost | hclear := hlatch hw
    · exact .inl hwakes
    · exact .inr (.inl hpost)
    · rw [hd] at hclear
      cases hclear
  · next bits hd =>
    have hcoming : s.WakeComing → (s.dispatch h bits).WakeComing := by
      rintro (hwakes | hpost | hclear)
      · exact .inl hwakes
      · exact .inr (.inl hpost)
      · rw [hd] at hclear
        cases hclear
    refine ⟨fun hw => hcoming (hlatch hw), fun hb => ?_, ?_, ?_⟩
    · obtain hwake | htest | hexchange := hbits hb
      · exact .inl (hcoming hwake)
      · exact .inr (.inl htest)
      · rw [hd] at hexchange
        cases hexchange
    · simp only [Mailbox.dispatch]
      split <;> exact hpending
    · simp only [Mailbox.dispatch]
      split <;> exact hexchanged

variable [DecidableEq π]

omit [DecidableEq π] in
/-- A producer that has not yet reached the latch moves on. -/
lemma WakeInv.move {t : Mailbox φ σ π} (hinv : WakeInv s) (hwake : t.wakePosted = s.wakePosted)
    (hcoming : s.WakeComing → t.WakeComing)
    (htest : (∃ q, s.producer q = .testWake) → ∃ q, t.producer q = .testWake)
    (hdrain : t.drain = s.drain) (hbits : t.bits = s.bits)
    (hlog : pendingBits t.log = pendingBits s.log)
    (hexchanged : Exchanged s.log → Exchanged t.log) : WakeInv t where
  latch hw := hcoming (hinv.latch (by rwa [← hwake]))
  bits hb := by
    obtain hw | ht | he := hinv.bits (by rwa [← hbits])
    · exact .inl (hcoming hw)
    · exact .inr (.inl (htest ht))
    · exact .inr (.inr (hdrain.trans he))
  pending := by rw [hbits, hlog, hinv.pending]
  exchanged := hexchanged hinv.exchanged

/-- A producer elsewhere stays where it is. -/
lemma exists_update {x v : Post φ} (hp : s.producer p ≠ x) (hx : ∃ q, s.producer q = x) :
    ∃ q, Function.update s.producer p v q = x := by
  obtain ⟨q, hq⟩ := hx
  have hqp : q ≠ p := by
    rintro rfl
    exact hp hq
  exact ⟨q, by rw [Function.update_of_ne hqp, hq]⟩

/-- A producer takes a step. -/
lemma WakeInv.stepPost (hinv : WakeInv s) : WakeInv (s.stepPost p) := by
  simp only [Mailbox.stepPost]
  split
  · exact hinv
  · next bit cls hp =>
    refine hinv.move rfl ?_ (fun ht => exists_update (by simp [hp]) ht) rfl rfl rfl id
    rintro (hwakes | hpost | hclear)
    · exact .inl hwakes
    · exact .inr (.inl (exists_update (by simp [hp]) hpost))
    · exact .inr (.inr hclear)
  · next bit hp =>
    refine ⟨fun hw => ?_, fun _ => .inr (.inl ⟨p, Function.update_self ..⟩), ?_, hinv.exchanged⟩
    · obtain hwakes | hpost | hclear := hinv.latch hw
      · exact .inl hwakes
      · exact .inr (.inl (exists_update (by simp [hp]) hpost))
      · exact .inr (.inr hclear)
    · simp only [pendingBits, hinv.pending]
  · next hp =>
    -- the latch was set before, or this producer posts the message
    suffices hcoming : Mailbox.WakeComing { s with
        wakePosted := true
        producer := Function.update s.producer p (if s.wakePosted then .idle else .postWake) } from
      ⟨fun _ => hcoming, fun _ => .inl hcoming, hinv.pending, hinv.exchanged⟩
    cases hw : s.wakePosted with
    | true =>
      obtain hwakes | hpost | hclear := hinv.latch hw
      · exact .inl hwakes
      · exact .inr (.inl (exists_update (by simp [hp]) hpost))
      · exact .inr (.inr hclear)
    | false => exact .inr (.inl ⟨p, by simp⟩)
  · next hp =>
    refine hinv.move rfl ?_ (fun ht => exists_update (by simp [hp]) ht) rfl rfl rfl id
    intro _
    exact .inl (Nat.succ_pos _)

/-- Every event keeps the invariant. -/
lemma WakeInv.step {e} (hinv : WakeInv s) : WakeInv (s.step h e) := by
  cases e with
  | Post p bit cls =>
    have hbegin : ∀ c, s.producer p = .idle →
        WakeInv { s with producer := Function.update s.producer p c } := by
      intro c hp
      refine hinv.move rfl ?_ (fun ht => exists_update (by simp [hp]) ht) rfl rfl rfl id
      rintro (hwakes | hpost | hclear)
      · exact .inl hwakes
      · exact .inr (.inl (exists_update (by simp [hp]) hpost))
      · exact .inr (.inr hclear)
    simp only [Mailbox.step]
    split
    · next hp => exact hbegin _ hp
    · next hp => exact hbegin _ hp
    · exact hinv
  | step p => exact hinv.stepPost
  | wake =>
    simp only [Mailbox.step]
    split
    · exact ⟨fun _ => .inr (.inr rfl), fun _ => .inl (.inr (.inr rfl)), hinv.pending, hinv.exchanged⟩
    · exact hinv
  | keydown =>
    simp only [Mailbox.step]
    split
    · exact ⟨fun _ => .inr (.inr rfl), fun _ => .inl (.inr (.inr rfl)), hinv.pending, hinv.exchanged⟩
    · exact hinv
  | drain => exact hinv.stepDrain

/-- The invariant holds in every run. -/
lemma wakeInv {hook : σ} {events : List (MailboxEvent φ π)} : WakeInv (mailboxRun h hook events) :=
  Machine.run_invariant WakeInv.start fun hinv => hinv.step

omit [DecidableEq π] in
/-- With no post in progress, set bits mean that a wake message is queued or a drain is about to take
    them. -/
lemma WakeInv.drain_coming (hinv : WakeInv s) (hidle : s.NoPost) (hbits : s.bits ≠ 0) :
    0 < s.wakes ∨ s.drain = .clearWake ∨ s.drain = .exchange := by
  obtain (hwakes | ⟨p, hp⟩ | hclear) | ⟨p, hp⟩ | hexchange := hinv.bits hbits
  · exact .inl hwakes
  · rw [hidle p] at hp
    cases hp
  · exact .inr (.inl hclear)
  · rw [hidle p] at hp
    cases hp
  · exact .inr (.inr hexchange)

omit [DecidableEq π] in
/-- When nothing is in progress and no wake message is queued, no bit is set. -/
lemma WakeInv.bits_eq_zero (hinv : WakeInv s) (hquiet : s.Quiescent) : s.bits = 0 := by
  by_contra hbits
  obtain ⟨hidle, hdrain, hwakes⟩ := hquiet
  obtain hw | hd | hd := hinv.drain_coming hidle hbits
  · omega
  · rw [hdrain] at hd
    cases hd
  · rw [hdrain] at hd
    cases hd

end

/-- A bit posted is in a word drained later, or among those posted since. -/
lemma drained_or_pending {φ : Type} {later earlier : List (MailboxEntry φ)} {bit}
    (h : Exchanged (later ++ .posted bit :: earlier)) :
    (∃ bits, .drained bits ∈ later ∧ bits &&& bit = bit) ∨
      pendingBits (later ++ .posted bit :: earlier) &&& bit = bit ∧ ∀ bits, .drained bits ∉ later := by
  have habsorb : ∀ a b : BitVec 32, (a ||| b) &&& b = b := by
    intro a b
    apply BitVec.eq_of_getLsbD_eq
    intro i _
    simp only [BitVec.getLsbD_and, BitVec.getLsbD_or]
    cases a.getLsbD i <;> cases b.getLsbD i <;> rfl
  have hkeep : ∀ {a b c : BitVec 32}, a &&& c = c → (a ||| b) &&& c = c := by
    intro a b c hac
    apply BitVec.eq_of_getLsbD_eq
    intro i _
    have hi := congrArg (·.getLsbD i) hac
    simp only [BitVec.getLsbD_and, BitVec.getLsbD_or] at hi ⊢
    revert hi
    cases a.getLsbD i <;> cases b.getLsbD i <;> cases c.getLsbD i <;> decide
  induction later with
  | nil => exact .inr ⟨habsorb (pendingBits earlier) bit, by simp⟩
  | cons e later ih =>
    cases e with
    | posted bit' =>
      obtain ⟨bits, hmem, hbits⟩ | ⟨hpending, hnone⟩ := ih h
      · exact .inl ⟨bits, List.mem_cons_of_mem _ hmem, hbits⟩
      · exact .inr ⟨hkeep hpending, by simpa using hnone⟩
    | drained bits' =>
      obtain ⟨hbits', h'⟩ := h
      obtain ⟨bits, hmem, hbits⟩ | ⟨hpending, -⟩ := ih h'
      · exact .inl ⟨bits, List.mem_cons_of_mem _ hmem, hbits⟩
      · exact .inl ⟨bits', List.mem_cons_self, by rw [hbits']; exact hpending⟩
    | _ =>
      obtain ⟨bits, hmem, hbits⟩ | ⟨hpending, hnone⟩ := ih h
      · exact .inl ⟨bits, List.mem_cons_of_mem _ hmem, hbits⟩
      · exact .inr ⟨hpending, by simpa using hnone⟩

/-- Every bit posted was returned by a later exchange. -/
def AllReturned {φ : Type} (log : List (MailboxEntry φ)) : Prop :=
  ∀ later bit earlier, log = later ++ .posted bit :: earlier → bit ≠ 0 →
    ∃ bits, .drained bits ∈ later ∧ bits &&& bit = bit

/-- Every bit posted was returned by a later exchange or is still there. -/
def AllReturnedOrSet {φ : Type} (bits : BitVec 32) (log : List (MailboxEntry φ)) : Prop :=
  ∀ later bit earlier, log = later ++ .posted bit :: earlier →
    (∃ bits', .drained bits' ∈ later ∧ bits' &&& bit = bit) ∨ bits &&& bit = bit

/-- With no post in progress, set bits mean that a wake message is queued or a drain is about to take
    them; each bit posted is returned by an exchange after it or is still there; and when nothing is in
    progress and no wake message is queued, every one was returned. -/
theorem bits_returned {φ σ π : Type} [DecidableEq π] {h : Handlers φ σ} {hook : σ}
    {events : List (MailboxEvent φ π)} :
    ((mailboxRun h hook events).NoPost → (mailboxRun h hook events).bits ≠ 0 →
      0 < (mailboxRun h hook events).wakes ∨ (mailboxRun h hook events).drain = .clearWake ∨
        (mailboxRun h hook events).drain = .exchange) ∧
    AllReturnedOrSet (mailboxRun h hook events).bits (mailboxRun h hook events).log ∧
    ((mailboxRun h hook events).Quiescent → AllReturned (mailboxRun h hook events).log) := by
  have hinv : WakeInv (mailboxRun h hook events) := wakeInv
  generalize mailboxRun h hook events = s at hinv
  have hset : AllReturnedOrSet s.bits s.log := by
    intro later bit earlier hlog
    have hexchanged := hinv.exchanged
    rw [hinv.pending]
    rw [hlog] at hexchanged ⊢
    obtain hdrained | ⟨hpending, -⟩ := drained_or_pending hexchanged
    · exact .inl hdrained
    · exact .inr hpending
  refine ⟨hinv.drain_coming, hset, ?_⟩
  intro hquiet later bit earlier hlog hbit
  obtain hdrained | hpending := hset later bit earlier hlog
  · exact hdrained
  · rw [hinv.bits_eq_zero hquiet] at hpending
    exact absurd (by simpa using hpending.symm) hbit

/-- Every bit posted was returned by a drain that began after it was set. -/
def AllReturnedByLaterDrain {φ : Type} (log : List (MailboxEntry φ)) : Prop :=
  ∀ later bit earlier, log = later ++ .posted bit :: earlier → bit ≠ 0 →
    ∃ after bits before, later = after ++ .drained bits :: before ∧ .cleared ∈ before ∧
      bits &&& bit = bit

/-- Handlers that do nothing. -/
def idleHandlers : Handlers Unit Unit where
  ApplyFocusOnHookThread _ s := s
  ApplyTickPollOnHookThread s := s
  ApplyToggleVNOnHookThread s := s
  ApplyConfigOnHookThread s := s
  engineEmpty _ := true

/-- The hook thread has taken the wake message of a post and not yet the bits. -/
def wakeTaken : List (MailboxEvent Unit Unit) :=
  [.Post () HookCommand.kTickPoll none, .step (), .step (), .step (), .wake]

/-- A drain that began before a bit was set takes it, and the one after finds none. -/
def drainedEarly : List (MailboxEvent Unit Unit) :=
  [.keydown, .drain, .Post () HookCommand.kTickPoll none, .step (), .drain, .drain, .step (), .step (),
    .wake, .drain, .drain, .drain]

/-- Set bits need not have a wake message in the queue, nor a drain that began after them. -/
theorem bits_without_wake :
    (¬∀ events : List (MailboxEvent Unit Unit), (mailboxRun idleHandlers () events).NoPost →
      (mailboxRun idleHandlers () events).bits ≠ 0 → 0 < (mailboxRun idleHandlers () events).wakes) ∧
    ¬∀ events : List (MailboxEvent Unit Unit), (mailboxRun idleHandlers () events).Quiescent →
      AllReturnedByLaterDrain (mailboxRun idleHandlers () events).log := by
  constructor
  · intro h
    have hwakes := h wakeTaken (fun _ => rfl) (by decide)
    revert hwakes
    decide
  · intro h
    have hreturned := h drainedEarly ⟨fun _ => rfl, rfl, rfl⟩ [.drained 0, .cleared, .drained 4] 4
      [.cleared] rfl (by decide)
    obtain ⟨after, bits, before, hlater, hcleared, hbits⟩ := hreturned
    rcases after with _ | ⟨_, _ | ⟨_, _ | ⟨_, after⟩⟩⟩
    · -- the word that drain returned is empty
      cases hlater
      revert hbits
      decide
    · cases hlater
    · cases hlater
      cases hcleared
    · have hlength := congrArg List.length hlater
      simp at hlength

end NextKey
