import Mathlib.Tactic.Tauto
import NextKey.Hook.Mailbox

/-!
# Focus snapshots in the mailbox

`Post` stores the focus snapshot before it sets `kFocusChanged`, and `DrainHookCommands` takes the
snapshot after it took the bits. In between, another producer can store a snapshot whose bit is yet to
come: that snapshot is taken with the earlier bit, and the drain of its own bit finds none
(`focus_null`). As long as a snapshot is taken only when no other post of one is under way or waiting,
every drain of `kFocusChanged` finds a snapshot. The last snapshot taken is the last one stored in
any case once nothing is in progress (`focus_of_settled`).
-/

namespace NextKey

/-- The commands of two posts. -/
lemma hasCommand_or {a b command : BitVec 32} :
    hasCommand (a ||| b) command = (hasCommand a command || hasCommand b command) := by
  have hzero := @BitVec.or_eq_zero_iff 32 (a &&& command) (b &&& command)
  rw [← BitVec.and_or_distrib_right] at hzero
  rw [Bool.eq_iff_iff]
  simp only [hasCommand, bne_iff_ne, ne_eq, Bool.or_eq_true, BitVec.ofNat_eq_ofNat, hzero]
  tauto

/-- The last snapshot stored. -/
def lastStored {φ : Type} : List (MailboxEntry φ) → Option φ
  | [] => none
  | .stored cls :: _ => some cls
  | _ :: log => lastStored log

/-- The last snapshot taken. -/
def lastConsumed {φ : Type} : List (MailboxEntry φ) → Option φ
  | [] => none
  | .consumed (some cls) :: _ => some cls
  | _ :: log => lastConsumed log

/-- A producer is about to set `kFocusChanged`. -/
def Post.SetsFocus {φ : Type} : Post φ → Prop
  | .setBit bit => hasCommand bit HookCommand.kFocusChanged
  | _ => False

/-- A drain that took `kFocusChanged` is about to take the snapshot. -/
def Drain.TakesFocus : Drain → Prop
  | .dispatch bits => hasCommand bits HookCommand.kFocusChanged
  | _ => False

/-- `kFocusChanged` is posted with a snapshot, and a snapshot with `kFocusChanged`. -/
def PostsSnapshots {φ π : Type} : MailboxEvent φ π → Prop
  | .Post _ bit cls => hasCommand bit HookCommand.kFocusChanged = cls.isSome
  | _ => True

/-- A snapshot is taken only when `kFocusChanged` is not set and no producer is about to set it. -/
def FocusSettled {φ σ π : Type} (s : Mailbox φ σ π) : MailboxEvent φ π → Prop
  | .drain => s.drain.TakesFocus →
    hasCommand s.bits HookCommand.kFocusChanged = false ∧ ∀ p, ¬(s.producer p).SetsFocus
  | _ => True

/-- The bit of a snapshot is about to be set, set, or taken. -/
def Mailbox.FocusComing {φ σ π : Type} (s : Mailbox φ σ π) : Prop :=
  hasCommand s.bits HookCommand.kFocusChanged ∨ (∃ p, (s.producer p).SetsFocus) ∨ s.drain.TakesFocus

/-- What holds while every snapshot is taken when the focus is settled. -/
structure FocusInv {φ σ π : Type} (s : Mailbox φ σ π) : Prop where
  store : ∀ p bit cls, s.producer p = .store bit cls → hasCommand bit HookCommand.kFocusChanged
  latest : s.pendingFocus.or (lastConsumed s.log) = lastStored s.log
  /-- A snapshot is there just when its bit is on its way. -/
  pending : s.pendingFocus.isSome ↔ s.FocusComing
  consumed : ∀ cls, .consumed cls ∈ s.log → cls.isSome

section
variable {φ σ π : Type} {h : Handlers φ σ} {s : Mailbox φ σ π} {p : π}

/-- At the start. -/
lemma FocusInv.start {hook : σ} : FocusInv (Mailbox.init hook : Mailbox φ σ π) where
  store p bit cls hp := by cases hp
  latest := rfl
  pending := by simp [Mailbox.init, Mailbox.FocusComing, hasCommand, Post.SetsFocus, Drain.TakesFocus]
  consumed cls hcls := by cases hcls

/-- The drain takes the snapshot and runs the commands. -/
lemma FocusInv.dispatch {bits} (hinv : FocusInv s) (hd : s.drain = .dispatch bits)
    (ok : FocusSettled s .drain) : FocusInv (s.dispatch h bits) := by
  obtain ⟨hstore, hlatest, hpending, hconsumed⟩ := hinv
  cases hfocus : hasCommand bits HookCommand.kFocusChanged with
  | true =>
    have htakes : s.drain.TakesFocus := by
      rw [hd]
      exact hfocus
    obtain ⟨hclear, hnone⟩ := ok htakes
    obtain ⟨cls, hcls⟩ := Option.isSome_iff_exists.1 (hpending.2 (.inr (.inr htakes)))
    refine ⟨hstore, ?_, ?_, ?_⟩
    · rw [hcls] at hlatest
      simp only [Mailbox.dispatch, hfocus, if_true, hcls, Option.none_or, lastConsumed, lastStored]
      exact hlatest
    · simp only [Mailbox.dispatch, hfocus, if_true, Mailbox.FocusComing, hclear, Drain.TakesFocus]
      simpa using hnone
    · simp only [Mailbox.dispatch, hfocus, if_true, List.mem_cons]
      rintro cls' (hcls' | hcls')
      · cases hcls'
        rw [hcls]
        rfl
      · exact hconsumed cls' hcls'
  | false =>
    refine ⟨hstore, ?_, ?_, ?_⟩
    · simpa [Mailbox.dispatch, hfocus] using hlatest
    · simpa [Mailbox.dispatch, hfocus, Mailbox.FocusComing, Drain.TakesFocus, hd] using hpending
    · simpa [Mailbox.dispatch, hfocus] using hconsumed

/-- The hook thread takes a step. -/
lemma FocusInv.stepDrain (hinv : FocusInv s) (ok : FocusSettled s .drain) :
    FocusInv (s.stepDrain h) := by
  cases hd : s.drain with
  | idle => simpa [Mailbox.stepDrain, hd] using hinv
  | clearWake =>
    obtain ⟨hstore, hlatest, hpending, hconsumed⟩ := hinv
    simp only [Mailbox.stepDrain, hd]
    refine ⟨hstore, hlatest, ?_, by simpa using hconsumed⟩
    simpa [Mailbox.FocusComing, Drain.TakesFocus, hd] using hpending
  | exchange =>
    obtain ⟨hstore, hlatest, hpending, hconsumed⟩ := hinv
    simp only [Mailbox.stepDrain, hd]
    refine ⟨hstore, hlatest, ?_, by simpa using hconsumed⟩
    rw [hpending]
    simp only [Mailbox.FocusComing, Drain.TakesFocus, hd]
    have hzero : hasCommand 0 HookCommand.kFocusChanged = false := by decide
    rw [hzero]
    tauto
  | dispatch bits =>
    simp only [Mailbox.stepDrain, hd]
    exact hinv.dispatch hd ok

variable [DecidableEq π]

/-- A producer that neither is nor gets to the setting of `kFocusChanged`. -/
lemma setsFocus_update {c : Post φ} (hp : ¬(s.producer p).SetsFocus) (hc : ¬c.SetsFocus) :
    (∃ q, (Function.update s.producer p c q).SetsFocus) ↔ ∃ q, (s.producer q).SetsFocus := by
  constructor
  · rintro ⟨q, hq⟩
    by_cases hqp : q = p
    · subst hqp
      rw [Function.update_self] at hq
      exact absurd hq hc
    · rw [Function.update_of_ne hqp] at hq
      exact ⟨q, hq⟩
  · rintro ⟨q, hq⟩
    have hqp : q ≠ p := by
      rintro rfl
      exact hp hq
    exact ⟨q, by rwa [Function.update_of_ne hqp]⟩

/-- A producer moves on away from the setting of `kFocusChanged`. -/
lemma FocusInv.move {t : Mailbox φ σ π} {c : Post φ} (hinv : FocusInv s)
    (hproducer : t.producer = Function.update s.producer p c) (hp : ¬(s.producer p).SetsFocus)
    (hc : ¬c.SetsFocus)
    (hstore : ∀ bit cls, c = .store bit cls → hasCommand bit HookCommand.kFocusChanged)
    (hbits : t.bits = s.bits) (hpending : t.pendingFocus = s.pendingFocus) (hdrain : t.drain = s.drain)
    (hlog : t.log = s.log) : FocusInv t where
  store q bit cls hq := by
    rw [hproducer] at hq
    by_cases hqp : q = p
    · subst hqp
      exact hstore bit cls (by simpa using hq)
    · rw [Function.update_of_ne hqp] at hq
      exact hinv.store q bit cls hq
  latest := by rw [hpending, hlog, hinv.latest]
  pending := by
    rw [hpending, hinv.pending, Mailbox.FocusComing, Mailbox.FocusComing, hbits, hdrain, hproducer,
      setsFocus_update hp hc]
  consumed := by rw [hlog]; exact hinv.consumed

/-- A producer sets its bit. -/
lemma FocusInv.setBit {bit} (hinv : FocusInv s) (hp : s.producer p = .setBit bit) :
    FocusInv { s with
      bits := s.bits ||| bit
      producer := Function.update s.producer p .testWake
      log := .posted bit :: s.log } := by
  obtain ⟨hstore, hlatest, hpending, hconsumed⟩ := hinv
  refine ⟨?_, hlatest, ?_, by simpa using hconsumed⟩
  · intro q bit' cls hq
    dsimp only at hq
    by_cases hqp : q = p
    · subst hqp
      simp at hq
    · rw [Function.update_of_ne hqp] at hq
      exact hstore q bit' cls hq
  · rw [hpending, Mailbox.FocusComing, Mailbox.FocusComing, hasCommand_or, Bool.or_eq_true]
    dsimp only
    constructor
    · rintro (hbits | ⟨q, hq⟩ | htakes)
      · exact .inl (.inl hbits)
      · by_cases hqp : q = p
        · subst hqp
          rw [hp] at hq
          exact .inl (.inr hq)
        · exact .inr (.inl ⟨q, by rwa [Function.update_of_ne hqp]⟩)
      · exact .inr (.inr htakes)
    · rintro ((hbits | hbit) | ⟨q, hq⟩ | htakes)
      · exact .inl hbits
      · refine .inr (.inl ⟨p, ?_⟩)
        rw [hp]
        exact hbit
      · by_cases hqp : q = p
        · subst hqp
          rw [Function.update_self] at hq
          exact hq.elim
        · rw [Function.update_of_ne hqp] at hq
          exact .inr (.inl ⟨q, hq⟩)
      · exact .inr (.inr htakes)

/-- A producer takes a step. -/
lemma FocusInv.stepPost (hinv : FocusInv s) : FocusInv (s.stepPost p) := by
  cases hp : s.producer p with
  | idle => simpa [Mailbox.stepPost, hp] using hinv
  | store bit cls =>
    have hfocus := hinv.store p bit cls hp
    obtain ⟨hstore, hlatest, hpending, hconsumed⟩ := hinv
    simp only [Mailbox.stepPost, hp]
    refine ⟨?_, by simp [lastStored], ?_, by simpa using hconsumed⟩
    · intro q bit' cls' hq
      dsimp only at hq
      by_cases hqp : q = p
      · subst hqp
        simp at hq
      · rw [Function.update_of_ne hqp] at hq
        exact hstore q bit' cls' hq
    · have hcoming : (Function.update s.producer p (.setBit bit) p).SetsFocus := by
        rw [Function.update_self]
        exact hfocus
      simp only [Option.isSome_some, true_iff]
      exact .inr (.inl ⟨p, hcoming⟩)
  | setBit bit =>
    simp only [Mailbox.stepPost, hp]
    exact hinv.setBit hp
  | testWake =>
    simp only [Mailbox.stepPost, hp]
    apply hinv.move rfl (by simp [hp, Post.SetsFocus])
    · split <;> simp [Post.SetsFocus]
    · intro bit cls hc
      split at hc <;> cases hc
    · rfl
    · rfl
    · rfl
    · rfl
  | postWake =>
    simp only [Mailbox.stepPost, hp]
    exact hinv.move rfl (by simp [hp, Post.SetsFocus]) (by simp [Post.SetsFocus]) (by simp) rfl rfl rfl
      rfl

omit [DecidableEq π] in
/-- The hook thread begins a drain. -/
lemma FocusInv.beginDrain {n} (hinv : FocusInv s) (hd : s.drain = .idle) :
    FocusInv { s with wakes := n, drain := .clearWake } := by
  obtain ⟨hstore, hlatest, hpending, hconsumed⟩ := hinv
  refine ⟨hstore, hlatest, ?_, hconsumed⟩
  simpa [Mailbox.FocusComing, Drain.TakesFocus, hd] using hpending

/-- Every event keeps the invariant. -/
lemma FocusInv.step {e} (hinv : FocusInv s) (ok : PostsSnapshots e ∧ FocusSettled s e) :
    FocusInv (s.step h e) := by
  cases e with
  | Post p bit cls =>
    simp only [Mailbox.step]
    split
    · next cls' hp =>
      have hfocus : hasCommand bit HookCommand.kFocusChanged = true := ok.1
      refine hinv.move rfl (by simp [hp, Post.SetsFocus]) (by simp [Post.SetsFocus]) ?_ rfl rfl rfl rfl
      rintro bit' cls' ⟨rfl, rfl⟩
      exact hfocus
    · next hp =>
      have hfocus : hasCommand bit HookCommand.kFocusChanged = false := ok.1
      exact hinv.move rfl (by simp [hp, Post.SetsFocus]) (by simp [Post.SetsFocus, hfocus]) (by simp)
        rfl rfl rfl rfl
    · exact hinv
  | step p => exact hinv.stepPost
  | wake =>
    simp only [Mailbox.step]
    split
    · next n hd _ => exact hinv.beginDrain hd
    · exact hinv
  | keydown =>
    simp only [Mailbox.step]
    split
    · next hd => exact hinv.beginDrain hd
    · exact hinv
  | drain => exact hinv.stepDrain ok.2

/-- While a snapshot is taken only when no other post of one is under way or waiting, every drain of
    `kFocusChanged` finds a snapshot; and when nothing is in progress the last snapshot taken is the
    last one stored. -/
theorem focus_of_settled {hook : σ} {events : List (MailboxEvent φ π)}
    (hguard : Machine.Guarded (Mailbox.step h) (fun s e => PostsSnapshots e ∧ FocusSettled s e)
      (.init hook) events) :
    (∀ cls, .consumed cls ∈ (mailboxRun h hook events).log → cls.isSome) ∧
      ((mailboxRun h hook events).Quiescent →
        lastConsumed (mailboxRun h hook events).log = lastStored (mailboxRun h hook events).log) := by
  have hinv : FocusInv (mailboxRun h hook events) :=
    hguard.invariant FocusInv.start fun hinv ok => hinv.step ok
  have hwake : WakeInv (mailboxRun h hook events) := wakeInv
  generalize mailboxRun h hook events = s at hinv hwake
  refine ⟨hinv.consumed, ?_⟩
  intro hquiet
  have hzero := hwake.bits_eq_zero hquiet
  have hnone : s.pendingFocus = none := by
    rw [← Option.isSome_eq_false_iff.trans Option.isNone_iff_eq_none, ← Bool.not_eq_true, hinv.pending]
    rintro (hbits | ⟨p, hp⟩ | htakes)
    · rw [hzero] at hbits
      cases hbits
    · rw [hquiet.noPost p] at hp
      exact hp
    · rw [hquiet.noDrain] at htakes
      exact htakes
  have hlatest := hinv.latest
  rwa [hnone, Option.none_or] at hlatest

end
/-- Handlers that do nothing. -/
def noHandlers {φ : Type} : Handlers φ Unit where
  ApplyFocusOnHookThread _ s := s
  ApplyTickPollOnHookThread s := s
  ApplyToggleVNOnHookThread s := s
  ApplyConfigOnHookThread s := s
  engineEmpty _ := true

/-- A snapshot is posted, and the hook thread wakes up and takes it. -/
def postAndDrain : List (MailboxEvent Bool Unit) :=
  [.Post () HookCommand.kFocusChanged (some true), .step (), .step (), .step (), .step (), .wake,
    .drain, .drain, .drain]

/-- A post that is drained meets the guard. -/
lemma guarded_postAndDrain : Machine.Guarded (Mailbox.step noHandlers)
    (fun s e => PostsSnapshots e ∧ FocusSettled s e) (.init ()) postAndDrain :=
  ⟨⟨rfl, trivial⟩, ⟨trivial, trivial⟩, ⟨trivial, trivial⟩, ⟨trivial, trivial⟩, ⟨trivial, trivial⟩,
    ⟨trivial, trivial⟩, ⟨trivial, fun h => h.elim⟩, ⟨trivial, fun h => h.elim⟩,
    ⟨trivial, fun _ => ⟨rfl, fun _ h => h⟩⟩, trivial⟩

/-- The one drain takes the one snapshot. -/
theorem focus_of_settled_once :
    (∀ cls, .consumed cls ∈ (mailboxRun noHandlers () postAndDrain).log → cls.isSome) ∧
      ((mailboxRun noHandlers () postAndDrain).Quiescent →
        lastConsumed (mailboxRun noHandlers () postAndDrain).log =
          lastStored (mailboxRun noHandlers () postAndDrain).log) :=
  focus_of_settled guarded_postAndDrain

/-- A second snapshot is stored between the exchange that took the bit of the first and the taking of
    the snapshot, and its own bit is set after. -/
def snapshotTakenEarly : List (MailboxEvent Bool Bool) :=
  [.Post false HookCommand.kFocusChanged (some false), .step false, .step false, .keydown, .drain,
    .drain, .Post true HookCommand.kFocusChanged (some true), .step true, .drain, .step true, .keydown,
    .drain, .drain, .drain]

/-- A drain of `kFocusChanged` can find no snapshot. -/
theorem focus_null : ¬∀ events : List (MailboxEvent Bool Bool), (∀ e ∈ events, PostsSnapshots e) →
    ∀ cls, .consumed cls ∈ (mailboxRun noHandlers () events).log → cls.isSome := by
  intro h
  have hposts : ∀ e ∈ snapshotTakenEarly, PostsSnapshots e := by
    simp [snapshotTakenEarly, PostsSnapshots, hasCommand, HookCommand.kFocusChanged]
  have hsome := h snapshotTakenEarly hposts none (.head _)
  cases hsome

end NextKey
