import Mathlib.Algebra.BigOperators.Group.List.Basic
import Mathlib.Algebra.GroupWithZero.Nat
import NextKey.Lib.Machine

/-!
# The counter of synthetic events

Model of `TrackedSendInput` in `app/output/Internal.cpp`, of `OnSynthDispatched` and
`DecrementSynthEvents` of `OutputDispatcher`, of `HotkeyManager::InjectDummyKey` and of the branch of
`HookEngine::LowLevelKeyboardProc` that sees the program's own events. A call of `TrackedSendInput`
counts its events before it hands them to `SendInput` one after another, and takes back those that
were refused; calls of several threads overlap, and an event may be delivered before the call that sent
it returns.

Both senders tag their events with `VKEY_EXTRA_INFO`, so the keyboard proc counts down for either, but
only one of them has counted up. The counter is right as long as no dummy key comes in between.
-/

namespace NextKey

/-- A call of `TrackedSendInput` that has counted its events. -/
structure SendCall where
  count : Nat
  /-- The events `SendInput` has accepted so far. -/
  sent : Nat

/-- The counted events that are not accepted. -/
def SendCall.unsent (call : SendCall) : Nat := call.count - call.sent

/-- The counter, the calls that are under way and the own events in flight. -/
structure SynthCounter where
  synthEventsPending : Int := 0
  calls : List SendCall := []
  /-- The events accepted by `TrackedSendInput` and not yet delivered. -/
  undelivered : Nat := 0
  /-- The same for `InjectDummyKey`. -/
  dummies : Nat := 0

inductive SynthStep where
  /-- `TrackedSendInput` is called and counts its events. -/
  | beginSend (count : Nat)
  /-- `SendInput` accepts one more event of a call. -/
  | accept (call : Nat)
  /-- `SendInput` refuses the rest, and the call returns. -/
  | endSend (call : Nat)
  /-- C++ `InjectDummyKey`, with as many of its two events as `SendInput` accepts -/
  | injectDummyKey (accepted : Fin 3)
  /-- An event of `TrackedSendInput` reaches the keyboard proc. -/
  | deliver
  /-- An event of `InjectDummyKey` does. -/
  | deliverDummy

namespace SynthCounter

variable (s : SynthCounter)

/-- C++ `OnSynthDispatched` -/
def OnSynthDispatched (delta : Int) : SynthCounter :=
  { s with synthEventsPending := s.synthEventsPending + delta }

/-- C++ `DecrementSynthEvents` -/
def DecrementSynthEvents : SynthCounter :=
  if 0 < s.synthEventsPending then { s with synthEventsPending := s.synthEventsPending - 1 } else s

/-- C++ `TrackedSendInput` up to its call of `SendInput` -/
def beginSend (count : Nat) : SynthCounter :=
  let s := if 0 < count then s.OnSynthDispatched count else s
  { s with calls := s.calls ++ [{ count, sent := 0 }] }

/-- `SendInput` accepts an event of a call that has one left. -/
def accept (i : Nat) : SynthCounter :=
  match s.calls[i]? with
  | none => s
  | some call =>
    if call.sent < call.count then
      { s with
        calls := s.calls.set i { call with sent := call.sent + 1 }
        undelivered := s.undelivered + 1 }
    else s

/-- C++ `TrackedSendInput` behind its call of `SendInput` -/
def endSend (i : Nat) : SynthCounter :=
  match s.calls[i]? with
  | none => s
  | some call =>
    let s := if call.sent < call.count then s.OnSynthDispatched (-(call.count - call.sent : Nat)) else s
    { s with calls := s.calls.eraseIdx i }

def step (s : SynthCounter) : SynthStep → SynthCounter
  | .beginSend count => s.beginSend count
  | .accept i => s.accept i
  | .endSend i => s.endSend i
  | .injectDummyKey accepted => { s with dummies := s.dummies + accepted }
  | .deliver =>
    if 0 < s.undelivered then { s with undelivered := s.undelivered - 1 }.DecrementSynthEvents else s
  | .deliverDummy =>
    if 0 < s.dummies then { s with dummies := s.dummies - 1 }.DecrementSynthEvents else s

/-- The counted events that no call under way has got accepted. -/
def unsent : Nat := (s.calls.map SendCall.unsent).sum

/-- The counter is the number of the accepted events that are not delivered, and of the events that a
call under way has counted ahead. -/
def Counted : Prop := s.synthEventsPending = s.undelivered + s.unsent

/-- No dummy key is delivered while an event of `TrackedSendInput` is in flight or counted ahead. -/
def Undisturbed : SynthStep → Prop
  | .deliverDummy => s.dummies = 0 ∨ s.undelivered = 0 ∧ s.unsent = 0
  | _ => True

variable {s}

/-- What is unsent after one call has gone on. -/
lemma unsent_set {i : Nat} {call call' : SendCall} (h : s.calls[i]? = some call) :
    ((s.calls.set i call').map SendCall.unsent).sum + call.unsent = s.unsent + call'.unsent := by
  obtain ⟨hi, rfl⟩ := List.getElem?_eq_some_iff.1 h
  have hset := ((List.set_perm_cons_eraseIdx hi call').map SendCall.unsent).sum_eq
  have hall := ((List.getElem_cons_eraseIdx_perm hi).map SendCall.unsent).sum_eq
  simp only [List.map_cons, List.sum_cons] at hset hall
  unfold unsent
  omega

/-- What is unsent after one call has ended. -/
lemma unsent_eraseIdx {i : Nat} {call : SendCall} (h : s.calls[i]? = some call) :
    ((s.calls.eraseIdx i).map SendCall.unsent).sum + call.unsent = s.unsent := by
  obtain ⟨hi, rfl⟩ := List.getElem?_eq_some_iff.1 h
  have hall := ((List.getElem_cons_eraseIdx_perm hi).map SendCall.unsent).sum_eq
  simp only [List.map_cons, List.sum_cons] at hall
  unfold unsent
  omega

/-- A call begins. -/
lemma Counted.beginSend (h : s.Counted) (count : Nat) : (s.beginSend count).Counted := by
  unfold Counted unsent SynthCounter.beginSend OnSynthDispatched SendCall.unsent at *
  split
  · simp only [List.map_append, List.map_cons, List.map_nil, List.sum_append, List.sum_singleton]
    omega
  · simp only [List.map_append, List.map_cons, List.map_nil, List.sum_append, List.sum_singleton]
    omega

/-- An event is accepted. -/
lemma Counted.accept (h : s.Counted) (i : Nat) : (s.accept i).Counted := by
  unfold SynthCounter.accept
  split
  · exact h
  · next call hcall =>
    split
    · next hlt =>
      have hset := @unsent_set s i call { call with sent := call.sent + 1 } hcall
      unfold Counted at *
      simp only [unsent, SendCall.unsent] at *
      omega
    · exact h

/-- A call ends. -/
lemma Counted.endSend (h : s.Counted) (i : Nat) : (s.endSend i).Counted := by
  unfold SynthCounter.endSend
  split
  · exact h
  · next call hcall =>
    have herase := unsent_eraseIdx hcall
    unfold Counted OnSynthDispatched at *
    simp only [unsent, SendCall.unsent] at *
    split
    · dsimp only
      omega
    · omega

/-- An event is delivered. -/
lemma Counted.deliver (h : s.Counted) : (s.step .deliver).Counted := by
  unfold step DecrementSynthEvents
  unfold Counted at *
  simp only [unsent] at *
  split
  · split <;> simp only <;> omega
  · exact h

/-- A foreign event with the mark is counted only when none is expected. -/
lemma Counted.deliverDummy (h : s.Counted) :
    (s.step .deliverDummy).Counted ↔ s.Undisturbed .deliverDummy := by
  unfold step DecrementSynthEvents Undisturbed
  unfold Counted at *
  simp only [unsent] at *
  split
  · split <;> simp only <;> omega
  · simp only [h, true_iff]
    omega

/-- Every step but the delivery of a dummy key keeps the counter right, and that one when it comes
alone. -/
lemma Counted.step (h : s.Counted) (e : SynthStep) : (s.step e).Counted ↔ s.Undisturbed e := by
  cases e with
  | beginSend count => exact iff_of_true (h.beginSend count) trivial
  | accept i => exact iff_of_true (h.accept i) trivial
  | endSend i => exact iff_of_true (h.endSend i) trivial
  | injectDummyKey accepted => exact iff_of_true h trivial
  | deliver => exact iff_of_true h.deliver trivial
  | deliverDummy => exact h.deliverDummy

/-- Between the calls the counter counts what is undelivered. -/
lemma Counted.synthEventsPending_eq (h : s.Counted) (idle : s.calls = []) :
    s.synthEventsPending = s.undelivered := by
  unfold Counted at h
  simpa [unsent, idle] using h

/-- The runs in which the counter is always right are those whose dummy keys are delivered while nothing
of `TrackedSendInput` is in flight; in these, whenever no call is under way, the counter is the number
of the accepted events that are not delivered. -/
theorem synthEventsPending_run (steps : List SynthStep) :
    ((∀ js, js <+: steps → (Machine.run step {} js).Counted) ↔
      Machine.Guarded step Undisturbed {} steps) ∧
    (Machine.Guarded step Undisturbed {} steps →
      ∀ js, js <+: steps → (Machine.run step {} js).calls = [] →
        (Machine.run step {} js).synthEventsPending = (Machine.run step {} js).undelivered) := by
  have hexact : (∀ js, js <+: steps → (Machine.run step {} js).Counted) ↔
      Machine.Guarded step Undisturbed {} steps := by
    apply @Machine.forall_prefix_iff _ _ step Undisturbed Counted Counted
    · rfl
    · exact id
    · intro s e h ok
      exact (h.step e).2 ok
    · intro s e h disturbed hcounted
      exact disturbed ((h.step e).1 hcounted)
  exact ⟨hexact, fun ok js hjs idle => (hexact.2 ok js hjs).synthEventsPending_eq idle⟩

/-- A backspace is in flight when a dummy key is delivered: the counter is zero. -/
theorem synthEventsPending_dummy :
    ∃ s, s = Machine.run step {}
        [.beginSend 1, .accept 0, .endSend 0, .injectDummyKey 2, .deliverDummy] ∧
      s.calls = [] ∧ s.synthEventsPending = 0 ∧ s.undelivered = 1 :=
  ⟨_, rfl, rfl, rfl, rfl⟩

end SynthCounter

end NextKey
