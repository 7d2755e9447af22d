import Mathlib.Algebra.Group.Nat.Defs
import Mathlib.Order.Nat
import NextKey.Lib.Since

/-!
# The clipboard comes back

Model of `output/ClipboardInjector.cpp` beside the other programs, which may put something on the
clipboard between any two of its calls. `Replace` saves the text that it finds, unless it still has the
original from before its last write, writes its own and pastes it; a timer, or `Replace` itself when
there is no timer, puts the original back. Every call that needs the lock of the clipboard may fail. The
clipboard counts its changes, and the count is what the injector knows them by. `RestoreTimerProc` runs
on the thread of `Replace`, between two calls of it, and its second look at the count, with the lock
held, is the one that counts. The keys, a `Replace` without text, and formats other than text are left
out.

What the user copied last is back on the clipboard when no restore is pending, in every run in which
nothing is copied between the look of a `Replace` and its write, and the locks for saving and restoring
are there (`clipboard_kept`). In no run at all does a restore touch what was copied since the injector
read the count behind its own write (`restore_spares_copies`).
-/

namespace NextKey

variable {α : Type*}

/-- Where a call of `Replace` stands. -/
inductive ClipboardPhase (α : Type*) where
  | idle
  /-- The timer is dead and the count looked at; `save` tells whether the text is to be saved. -/
  | checked (text : List α) (save : Bool)
  | saved (text : List α)
  /-- The text is written and the count not read yet. -/
  | written
  | pasting

namespace ClipboardPhase

/-- What is copied now is not overwritten unseen. -/
def settled : ClipboardPhase α → Bool
  | .idle | .pasting => true
  | .checked _ _ | .saved _ | .written => false

end ClipboardPhase

/-- How a change of the clipboard goes: whether it is opened, whether `SetClipboardData` succeeds, and
    by how much more than 1 the count goes up. -/
structure ClipboardCall where
  opened : Bool := true
  set : Bool := true
  more : Nat := 0

/-- The clipboard and the injector. -/
structure ClipboardInjector (α : Type*) where
  /-- The text on the clipboard, empty when there is none. -/
  content : List α
  changes : Nat
  originalClipText : List α := []
  hasOriginalClip : Bool := false
  /-- Whether there is a timer. -/
  restoreTimer : Bool := false
  lastWrittenSeq : BitVec 32 := 0
  phase : ClipboardPhase α := .idle

/-- What happens in a run. -/
inductive ClipboardEvent (α : Type*) where
  /-- Another program puts something on the clipboard. -/
  | copy (text : List α) (more : Nat)
  /-- `Replace` is called, kills the timer and looks at the count. -/
  | begin (text : List α)
  | save (opened : Bool)
  | write (call : ClipboardCall)
  | snapshot
  /-- `SetTimer`, and the restore when it fails -/
  | schedule (created : Bool) (call : ClipboardCall)
  /-- `RestoreTimerProc`, for the timer that is set or a message of an earlier one -/
  | timer (current : Bool) (call : ClipboardCall)

namespace ClipboardInjector

section Model

variable (s : ClipboardInjector α)

def GetClipboardSequenceNumber : BitVec 32 := BitVec.ofNat 32 s.changes

/-- The clipboard is emptied, and gets a text. -/
def put (text : List α) (call : ClipboardCall) : ClipboardInjector α :=
  { s with content := if call.set then text else [], changes := s.changes + 1 + call.more }

/-- C++ `RestoreOriginalClipboardIfSeqMatches`, for what was written last -/
def RestoreOriginalClipboardIfSeqMatches (call : ClipboardCall) : ClipboardInjector α :=
  if s.GetClipboardSequenceNumber = s.lastWrittenSeq ∧ call.opened then s.put s.originalClipText call
  else s

/-- The restore, after which the original is forgotten. -/
def restoreAndForget (call : ClipboardCall) : ClipboardInjector α :=
  if s.hasOriginalClip then
    { s.RestoreOriginalClipboardIfSeqMatches call with
      originalClipText := []
      hasOriginalClip := false }
  else s

/-- One event. -/
def step : ClipboardEvent α → ClipboardInjector α
  | .copy text more => s.put text { more }
  | .begin text =>
    match s.phase with
    | .idle =>
      let touched := s.GetClipboardSequenceNumber != s.lastWrittenSeq
      { s with restoreTimer := false, phase := .checked text (!s.hasOriginalClip || touched) }
    | _ => s
  | .save opened =>
    match s.phase with
    | .checked text true =>
      { s with
        originalClipText := if opened then s.content else []
        hasOriginalClip := true
        phase := .saved text }
    | .checked text false => { s with phase := .saved text }
    | _ => s
  | .write call =>
    match s.phase with
    | .saved text =>
      if call.opened then { s.put text call with phase := .written } else { s with phase := .pasting }
    | _ => s
  | .snapshot =>
    match s.phase with
    | .written => { s with lastWrittenSeq := s.GetClipboardSequenceNumber, phase := .pasting }
    | _ => s
  | .schedule created call =>
    match s.phase with
    | .pasting =>
      if created then { s with restoreTimer := true, phase := .idle }
      else { s.restoreAndForget call with phase := .idle }
    | _ => s
  | .timer current call =>
    match s.phase with
    | .idle =>
      if s.restoreTimer ∧ current then { s with restoreTimer := false }.restoreAndForget call else s
    | _ => s

/-- Nothing is copied while a `Replace` overwrites it unseen, and saving and restoring succeed. -/
def undisturbed : ClipboardEvent α → Bool
  | .copy _ _ => s.phase.settled
  | .save opened => opened
  | .schedule created call => created || call.opened && call.set
  | .timer _ call => call.opened && call.set
  | .begin _ | .write _ | .snapshot => true

end Model

/-- What was copied last. -/
def copied (last : List α) : ClipboardEvent α → List α
  | .copy text _ => text
  | _ => last

/-- A run that starts with a text on the clipboard. -/
abbrev clipboardRun (content : List α) (changes : Nat) (events : List (ClipboardEvent α)) :
    ClipboardInjector α :=
  Machine.run step { content, changes } events

section Invariant

variable {s : ClipboardInjector α} {e : ClipboardEvent α} {user text : List α} {call : ClipboardCall}

/-- What is put on the clipboard counts. -/
lemma changes_put : (s.put text call).changes = s.changes + 1 + call.more := rfl

/-- A restore does not count back. -/
lemma changes_le_restore : s.changes ≤ (s.restoreAndForget call).changes := by
  unfold restoreAndForget RestoreOriginalClipboardIfSeqMatches
  split
  · split
    · rw [changes_put]
      omega
    · exact le_rfl
  · exact le_rfl

/-- No event counts back. -/
lemma changes_le_step : s.changes ≤ (s.step e).changes := by
  cases e with
  | copy text more =>
    show s.changes ≤ s.changes + 1 + more
    omega
  | begin text =>
    simp only [step]
    split <;> exact le_rfl
  | save opened =>
    simp only [step]
    split <;> exact le_rfl
  | write call =>
    simp only [step]
    split
    · split
      · show s.changes ≤ s.changes + 1 + call.more
        omega
      · exact le_rfl
    · exact le_rfl
  | snapshot =>
    simp only [step]
    split <;> exact le_rfl
  | schedule created call =>
    simp only [step]
    split
    · split
      · exact le_rfl
      · exact changes_le_restore
    · exact le_rfl
  | timer current call =>
    simp only [step]
    split
    · split
      · exact @changes_le_restore _ { s with restoreTimer := false } call
      · exact le_rfl
    · exact le_rfl

/-- The injector has read the count at some time, or it is 0. -/
def SeenBefore (s : ClipboardInjector α) : Prop :=
  ∃ seen ≤ s.changes, s.lastWrittenSeq = BitVec.ofNat 32 seen

/-- A change makes the count differ from what the injector has read, while it has not come round. -/
lemma SeenBefore.ne_of_lt {s' : ClipboardInjector α} (h : s.SeenBefore) (hlt : s.changes < s'.changes)
    (hfew : s'.changes < 2 ^ 32) : s'.GetClipboardSequenceNumber ≠ s.lastWrittenSeq := by
  obtain ⟨seen, hseen, heq⟩ := h
  unfold GetClipboardSequenceNumber
  rw [heq]
  bv_omega

/-- What was seen stays in the past. -/
lemma SeenBefore.of_le {s' : ClipboardInjector α} (h : s.SeenBefore) (hle : s.changes ≤ s'.changes)
    (hseq : s'.lastWrittenSeq = s.lastWrittenSeq) : s'.SeenBefore := by
  obtain ⟨seen, hseen, heq⟩ := h
  exact ⟨seen, hseen.trans hle, hseq.trans heq⟩

/-- A restore keeps the number it has read. -/
lemma lastWrittenSeq_restore : (s.restoreAndForget call).lastWrittenSeq = s.lastWrittenSeq := by
  unfold restoreAndForget RestoreOriginalClipboardIfSeqMatches
  split
  · split <;> rfl
  · rfl

/-- It is saved, or on the clipboard. -/
def Kept (s : ClipboardInjector α) (user : List α) : Prop :=
  (s.GetClipboardSequenceNumber = s.lastWrittenSeq → s.hasOriginalClip = true →
      s.originalClipText = user) ∧
    (s.GetClipboardSequenceNumber ≠ s.lastWrittenSeq ∨ s.hasOriginalClip = false → s.content = user)

/-- Where it is while `Replace` runs. -/
def KeptIn (s : ClipboardInjector α) (user : List α) : ClipboardPhase α → Prop
  | .idle | .pasting => s.Kept user
  | .checked _ true => s.content = user
  | .checked _ false =>
    s.GetClipboardSequenceNumber = s.lastWrittenSeq ∧ s.hasOriginalClip = true ∧
      s.originalClipText = user
  | .saved _ =>
    s.hasOriginalClip = true ∧ s.originalClipText = user ∧
      (s.GetClipboardSequenceNumber ≠ s.lastWrittenSeq → s.content = user)
  | .written => s.hasOriginalClip = true ∧ s.originalClipText = user

/-- What holds of a run in which the injector is not disturbed. -/
structure Safe (s : ClipboardInjector α) (user : List α) : Prop where
  seen : s.SeenBefore
  pending : s.phase = .idle → s.hasOriginalClip = true → s.restoreTimer = true
  kept : s.KeptIn user s.phase

/-- A restore stays in its phase. -/
lemma phase_restore : (s.restoreAndForget call).phase = s.phase := by
  unfold restoreAndForget RestoreOriginalClipboardIfSeqMatches
  split
  · split <;> rfl
  · rfl

/-- After a restore nothing is saved. -/
lemma hasOriginalClip_restore : (s.restoreAndForget call).hasOriginalClip = false := by
  unfold restoreAndForget
  split
  · rfl
  · next hnone => exact Bool.eq_false_iff.2 hnone

/-- A restore that gets through leaves the text of the user. -/
lemma Kept.restore (h : s.Kept user) (hopened : call.opened = true) (hset : call.set = true) :
    (s.restoreAndForget call).content = user := by
  unfold restoreAndForget RestoreOriginalClipboardIfSeqMatches
  split
  · next horiginal =>
    split
    · next hseq =>
      show (if call.set then s.originalClipText else []) = user
      rw [if_pos hset]
      exact h.1 hseq.1 horiginal
    · next hseq => exact h.2 (.inl fun heq => hseq ⟨heq, hopened⟩)
  · next hnone => exact h.2 (.inr (Bool.eq_false_iff.2 hnone))

/-- What is copied between two looks of the injector is kept. -/
lemma Safe.copy {more : Nat} (h : s.Safe user) (hok : s.phase.settled = true)
    (hfew : (s.step (.copy text more)).changes < 2 ^ 32) : (s.step (.copy text more)).Safe text := by
  have hne : (s.step (.copy text more)).GetClipboardSequenceNumber ≠ s.lastWrittenSeq :=
    h.seen.ne_of_lt (by rw [step, changes_put]; omega) hfew
  have hkept : (s.step (.copy text more)).Kept text := ⟨fun heq => absurd heq hne, fun _ => rfl⟩
  refine ⟨h.seen.of_le changes_le_step rfl, h.pending, ?_⟩
  show (s.step (.copy text more)).KeptIn text s.phase
  cases hphase : s.phase with
  | idle | pasting => exact hkept
  | checked _ _ | saved _ | written =>
    rw [hphase] at hok
    cases hok

/-- A `Replace` begins. -/
lemma Safe.begin (h : s.Safe user) : (s.step (.begin text)).Safe user := by
  have hkept := h.kept
  simp only [step]
  split
  · next hphase =>
    rw [hphase] at hkept
    refine ⟨h.seen, nofun, ?_⟩
    cases hsave : !s.hasOriginalClip || s.GetClipboardSequenceNumber != s.lastWrittenSeq with
    | true =>
      rw [Bool.or_eq_true, Bool.not_eq_true', bne_iff_ne] at hsave
      exact hkept.2 hsave.symm
    | false =>
      rw [Bool.or_eq_false_iff, Bool.not_eq_false', bne_eq_false_iff_eq] at hsave
      exact ⟨hsave.2, hsave.1, hkept.1 hsave.2 hsave.1⟩
  · exact h

/-- The clipboard is saved. -/
lemma Safe.save (h : s.Safe user) : (s.step (.save true)).Safe user := by
  have hkept := h.kept
  simp only [step]
  split
  · next hphase =>
    rw [hphase] at hkept
    exact ⟨h.seen, nofun, rfl, hkept, fun _ => hkept⟩
  · next hphase =>
    rw [hphase] at hkept
    exact ⟨h.seen, nofun, hkept.2.1, hkept.2.2, fun hne => absurd hkept.1 hne⟩
  · exact h

/-- The text is written. -/
lemma Safe.write (h : s.Safe user) : (s.step (.write call)).Safe user := by
  have hkept := h.kept
  simp only [step]
  split
  · next hphase =>
    rw [hphase] at hkept
    split
    · refine ⟨h.seen.of_le ?_ rfl, nofun, hkept.1, hkept.2.1⟩
      show s.changes ≤ s.changes + 1 + call.more
      omega
    · exact ⟨h.seen, nofun, fun _ _ => hkept.2.1, fun hne => hne.elim hkept.2.2 fun hnone =>
        absurd (hnone.symm.trans hkept.1) Bool.false_ne_true⟩
  · exact h

/-- The number is read. -/
lemma Safe.snapshot (h : s.Safe user) : (s.step .snapshot).Safe user := by
  have hkept := h.kept
  simp only [step]
  split
  · next hphase =>
    rw [hphase] at hkept
    exact ⟨⟨s.changes, le_rfl, rfl⟩, nofun, fun _ _ => hkept.2, fun hne => hne.elim (absurd rfl)
      fun hnone => absurd (hnone.symm.trans hkept.1) Bool.false_ne_true⟩
  · exact h

/-- The restore, at the end of `Replace` or later. -/
lemma Safe.restore {s' : ClipboardInjector α} (h : s.SeenBefore) (hkept : s.Kept user)
    (hopened : call.opened = true) (hset : call.set = true)
    (hs' : s' = { s.restoreAndForget call with phase := .idle }) : s'.Safe user := by
  subst hs'
  have hnone : (s.restoreAndForget call).hasOriginalClip = false := hasOriginalClip_restore
  refine ⟨h.of_le changes_le_restore lastWrittenSeq_restore, fun _ hsome => ?_, fun _ hsome => ?_,
    fun _ => hkept.restore hopened hset⟩
  · exact absurd (hnone.symm.trans hsome) Bool.false_ne_true
  · exact absurd (hnone.symm.trans hsome) Bool.false_ne_true

/-- The timer is set, or the restore tried at once. -/
lemma Safe.schedule {created : Bool} (h : s.Safe user)
    (hok : (created || call.opened && call.set) = true) :
    (s.step (.schedule created call)).Safe user := by
  have hkept := h.kept
  simp only [step]
  split
  · next hphase =>
    rw [hphase] at hkept
    cases created with
    | true => exact ⟨h.seen, fun _ _ => rfl, hkept⟩
    | false =>
      rw [Bool.false_or, Bool.and_eq_true] at hok
      exact .restore h.seen hkept hok.1 hok.2 rfl
  · exact h

/-- The timer fires. -/
lemma Safe.timer {current : Bool} (h : s.Safe user) (hok : (call.opened && call.set) = true) :
    (s.step (.timer current call)).Safe user := by
  have hkept := h.kept
  simp only [step]
  split
  · next hphase =>
    rw [hphase] at hkept
    split
    · rw [Bool.and_eq_true] at hok
      have hidle : ({ s with restoreTimer := false }.restoreAndForget call).phase = .idle :=
        phase_restore.trans hphase
      have hstart : SeenBefore { s with restoreTimer := false } := h.seen
      refine .restore hstart hkept hok.1 hok.2 ?_
      rw [← hidle]
    · exact h
  · exact h

/-- What every undisturbed event preserves. -/
lemma Safe.step (h : s.Safe user) (hok : s.undisturbed e = true) (hfew : (s.step e).changes < 2 ^ 32) :
    (s.step e).Safe (copied user e) := by
  cases e with
  | copy text more => exact h.copy hok hfew
  | begin text => exact h.begin
  | save opened =>
    obtain rfl : opened = true := hok
    exact h.save
  | write call => exact h.write
  | snapshot => exact h.snapshot
  | schedule created call => exact h.schedule hok
  | timer current call => exact h.timer hok

/-- No run counts back. -/
lemma changes_le_run {events : List (ClipboardEvent α)} :
    s.changes ≤ (Machine.run ClipboardInjector.step s events).changes := by
  induction events generalizing s with
  | nil => exact le_rfl
  | cons e events ih => exact changes_le_step.trans ih

/-- The text of the user along a run, by induction on the events. -/
lemma Safe.run {events : List (ClipboardEvent α)} (h : s.Safe user)
    (hok : Machine.Guarded ClipboardInjector.step (fun s e => s.undisturbed e = true) s events)
    (hfew : (Machine.run ClipboardInjector.step s events).changes < 2 ^ 32) :
    (Machine.run ClipboardInjector.step s events).Safe (events.foldl copied user) := by
  induction events generalizing s user with
  | nil => exact h
  | cons e events ih => exact ih (h.step hok.1 (lt_of_le_of_lt changes_le_run hfew)) hok.2 hfew

end Invariant

/-- When no restore is pending, the text that was copied last is on the clipboard: in every run in which
nothing is copied between the look of a `Replace` at the clipboard and its reading of the count behind its
write, the saving can open the clipboard, and each restore can open and set it. -/
theorem clipboard_kept {content : List α} {changes : Nat} {events : List (ClipboardEvent α)}
    (hok : Machine.Guarded step (fun s e => s.undisturbed e = true) { content, changes } events)
    (hfew : (clipboardRun content changes events).changes < 2 ^ 32)
    (hphase : (clipboardRun content changes events).phase = .idle)
    (htimer : (clipboardRun content changes events).restoreTimer = false) :
    (clipboardRun content changes events).content = events.foldl copied content := by
  have hstart : Safe { content, changes } content :=
    ⟨⟨0, Nat.zero_le _, rfl⟩, nofun, nofun, fun _ => rfl⟩
  have hsafe := hstart.run hok hfew
  have hkept := hsafe.kept
  rw [hphase] at hkept
  refine hkept.2 (.inr (Bool.eq_false_iff.2 fun hsome => ?_))
  exact absurd (htimer.symm.trans (hsafe.pending hphase hsome)) Bool.false_ne_true

/-- A word is pasted, up to the timer. -/
def pasteRun : List (ClipboardEvent UInt16) :=
  [.begin [0xE1], .save true, .write {}, .snapshot, .schedule true {}]

/-- A word is pasted and the clipboard restored. -/
theorem clipboard_kept_pasteRun :
    (clipboardRun [0x61] 1 pasteRun).content = [0xE1] ∧
      (clipboardRun [0x61] 1 (pasteRun ++ [.timer true {}])).content = [0x61] :=
  ⟨rfl, clipboard_kept (by decide) (by decide) rfl rfl⟩

/-- Another program puts something on the clipboard. -/
def isCopy : ClipboardEvent α → Bool
  | .copy _ _ => true
  | _ => false

/-- It may be time to restore. -/
def isRestore : ClipboardEvent α → Bool
  | .schedule _ _ | .timer _ _ => true
  | _ => false

section Spared

variable {s : ClipboardInjector α} {e : ClipboardEvent α} {call : ClipboardCall}

/-- A restore changes the clipboard only when it is unchanged since the write. -/
lemma restore_cases : s.changes < (s.restoreAndForget call).changes ∧
      s.GetClipboardSequenceNumber = s.lastWrittenSeq ∨
    (s.restoreAndForget call).changes = s.changes := by
  unfold restoreAndForget RestoreOriginalClipboardIfSeqMatches
  split
  · split
    · next hseq =>
      refine .inl ⟨?_, hseq.1⟩
      rw [changes_put]
      omega
    · exact .inr rfl
  · exact .inr rfl

/-- An event changes the clipboard, or reads the count behind a write, or neither, and then it is no
copy. -/
lemma step_cases :
    s.changes < (s.step e).changes ∧ (s.step e).lastWrittenSeq = s.lastWrittenSeq ∧
        (isRestore e = true → s.GetClipboardSequenceNumber = s.lastWrittenSeq) ∨
      (e = .snapshot ∧ s.phase = .written) ∧ (s.step e).changes = s.changes ∧
        (s.step e).lastWrittenSeq = s.GetClipboardSequenceNumber ∨
      (s.step e).changes = s.changes ∧ (s.step e).lastWrittenSeq = s.lastWrittenSeq ∧
        isCopy e = false := by
  cases e with
  | copy text more =>
    refine .inl ⟨?_, rfl, nofun⟩
    show s.changes < s.changes + 1 + more
    omega
  | begin text =>
    simp only [step]
    split <;> exact .inr (.inr ⟨rfl, rfl, rfl⟩)
  | save opened =>
    simp only [step]
    split <;> exact .inr (.inr ⟨rfl, rfl, rfl⟩)
  | write call =>
    simp only [step]
    split
    · split
      · refine .inl ⟨?_, rfl, nofun⟩
        show s.changes < s.changes + 1 + call.more
        omega
      · exact .inr (.inr ⟨rfl, rfl, rfl⟩)
    · exact .inr (.inr ⟨rfl, rfl, rfl⟩)
  | snapshot =>
    simp only [step]
    split
    · next hphase => exact .inr (.inl ⟨⟨trivial, hphase⟩, rfl, rfl⟩)
    · exact .inr (.inr ⟨rfl, rfl, rfl⟩)
  | schedule created call =>
    simp only [step]
    split
    · split
      · exact .inr (.inr ⟨rfl, rfl, rfl⟩)
      · obtain ⟨hlt, hseq⟩ | hsame := @restore_cases _ s call
        · exact .inl ⟨hlt, lastWrittenSeq_restore, fun _ => hseq⟩
        · exact .inr (.inr ⟨hsame, lastWrittenSeq_restore, rfl⟩)
    · exact .inr (.inr ⟨rfl, rfl, rfl⟩)
  | timer current call =>
    simp only [step]
    split
    · split
      · obtain ⟨hlt, hseq⟩ | hsame := @restore_cases _ { s with restoreTimer := false } call
        · exact .inl ⟨hlt, lastWrittenSeq_restore, fun _ => hseq⟩
        · exact .inr (.inr ⟨hsame, lastWrittenSeq_restore, rfl⟩)
      · exact .inr (.inr ⟨rfl, rfl, rfl⟩)
    · exact .inr (.inr ⟨rfl, rfl, rfl⟩)

/-- The injector has read the count behind its own write. -/
def Reads (s : ClipboardInjector α) (e : ClipboardEvent α) : Prop := e = .snapshot ∧ s.phase = .written

/-- While the count is what the injector has read, nothing has been copied since. -/
lemma seen_run {content : List α} {changes : Nat} {events : List (ClipboardEvent α)}
    (hsome : 0 < changes) (hfew : (clipboardRun content changes events).changes < 2 ^ 32) :
    (clipboardRun content changes events).SeenBefore ∧
      ((clipboardRun content changes events).GetClipboardSequenceNumber =
          (clipboardRun content changes events).lastWrittenSeq →
        Machine.Since step Reads (fun _ e => isCopy e = false) { content, changes } events) := by
  induction events using List.reverseRecOn with
  | nil =>
    refine ⟨⟨0, Nat.zero_le _, rfl⟩, fun heq => ?_⟩
    have hzero : BitVec.ofNat 32 changes = 0 := heq
    have hfew' : changes < 2 ^ 32 := hfew
    bv_omega
  | append_singleton events e ih =>
    have hrun : clipboardRun content changes (events ++ [e]) =
        (clipboardRun content changes events).step e := Machine.run_append
    rw [hrun] at hfew ⊢
    rw [Machine.since_concat]
    obtain ⟨hseen, hsince⟩ := ih (lt_of_le_of_lt changes_le_step hfew)
    obtain ⟨hlt, hseq, -⟩ | ⟨hreads, hsame, hseq⟩ | ⟨hsame, hseq, hcopy⟩ :=
      @step_cases _ (clipboardRun content changes events) e
    · refine ⟨hseen.of_le hlt.le hseq, fun heq => ?_⟩
      rw [hseq] at heq
      exact absurd heq (hseen.ne_of_lt hlt hfew)
    · exact ⟨⟨_, hsame.ge, hseq⟩, fun _ => .inl hreads⟩
    · refine ⟨hseen.of_le hsame.ge hseq, fun heq => .inr ⟨hsince ?_, hcopy⟩⟩
      rw [hseq, GetClipboardSequenceNumber, hsame] at heq
      exact heq

end Spared

/-- A restore touches the clipboard only when nothing has been copied since the injector read the count
behind its own write. -/
theorem restore_spares_copies {content : List α} {changes : Nat} {events : List (ClipboardEvent α)}
    {e : ClipboardEvent α} (hsome : 0 < changes)
    (hfew : (clipboardRun content changes events).changes < 2 ^ 32) (he : isRestore e = true)
    (htouched : ((clipboardRun content changes events).step e).changes ≠
      (clipboardRun content changes events).changes) :
    Machine.Since step Reads (fun _ e => isCopy e = false) { content, changes } events := by
  obtain ⟨-, -, hseq⟩ | ⟨-, hsame, -⟩ | ⟨hsame, -⟩ :=
    @step_cases _ (clipboardRun content changes events) e
  · exact (seen_run hsome hfew).2 (hseq he)
  · exact absurd hsame htouched
  · exact absurd hsame htouched

/-- The timer after a word was pasted. -/
theorem restore_spares_copies_pasteRun :
    Machine.Since step Reads (fun _ e => isCopy e = false)
      ({ content := [0x61], changes := 1 } : ClipboardInjector UInt16) pasteRun :=
  @restore_spares_copies _ [0x61] 1 pasteRun (.timer true {}) (by decide) (by decide) rfl (by decide)

end ClipboardInjector

end NextKey
