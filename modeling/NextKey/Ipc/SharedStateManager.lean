import Mathlib.Algebra.GroupWithZero.Nat
import Mathlib.Data.List.FinRange
import Mathlib.Tactic.Tauto
import NextKey.Lib.Seqlock

/-!
# The shared state

Model of `SharedState` in `core/ipc/SharedState.h` and of `Read`, `Write`, `ReadEpoch`, `ToggleFlag` and
`SetOrClearFlag` in `core/ipc/SharedStateManager.cpp`: processes share one record, and each works on it
through a manager of its own with a writable mapping. Every load and store of a field is a step, so the
calls of all processes interleave in any order. `contextAnchor`, which `Write` leaves alone, is left
out.

`Write` loads the epoch and stores it back instead of adding to it, and it stores the flags it was
given. Two calls of `Write` that overlap can leave the epoch odd for good, and a flag that changes
between a `Read` and the `Write` after it is lost.
-/

namespace NextKey

/-- `featureFlags` has an element. -/
instance neZero_flagBytes : NeZero 2 := ⟨by decide⟩

/-- The fields of `SharedState`; `reserved` byte by byte. -/
inductive SharedField where
  | magic
  | structVersion
  | structSize
  | epoch
  | flags
  | inputMethod
  | spellCheck
  | optimizeLevel
  | featureFlags (k : Fin 2)
  | extFeatureFlags
  | codeTable
  | hotkeyMods
  | hotkeyKeyLo
  | hotkeyKeyHi
  | convertMods
  | convertKeyLo
  | convertKeyHi
  | configGeneration
  | diagFlags
  | reserved (k : Fin 1024)
  deriving DecidableEq, Repr

/-- Width of a field in bits. -/
abbrev SharedField.width : SharedField → Nat
  | .magic | .structVersion | .structSize | .epoch | .flags => 32
  | _ => 8

/-- The record the processes share (C++ `SharedState`). -/
abbrev SharedState := Seqlock.Record fun f : SharedField => BitVec f.width

namespace SharedState

/-- 'NKEY' -/
def MAGIC_VALUE : BitVec 32 := 0x59454B4E

def CURRENT_VERSION : BitVec 32 := 4

/-- The state `SharedState{}`. -/
def zero : SharedState := fun _ => 0

/-- Whether a state may be used (C++ `IsValid`). -/
def IsValid (st : SharedState) : Prop :=
  st .magic = MAGIC_VALUE ∧ st .structVersion ≤ CURRENT_VERSION ∧ 24#32 ≤ st .structSize

instance {st : SharedState} : Decidable st.IsValid :=
  inferInstanceAs (Decidable (_ ∧ _))

/-- C++ `InitDefaults` -/
def InitDefaults : SharedState
  | .magic => MAGIC_VALUE
  | .structVersion => CURRENT_VERSION
  | .structSize => 1104
  | .flags => 0x0003
  | .featureFlags 0 => 0x05
  | _ => 0

end SharedState

/-- The fields in the order of the struct, in which `Read` copies them. -/
@[irreducible] def readOrder : List SharedField :=
  [.magic, .structVersion, .structSize, .epoch, .flags, .inputMethod, .spellCheck, .optimizeLevel,
    .featureFlags 0, .featureFlags 1, .extFeatureFlags, .codeTable, .hotkeyMods, .hotkeyKeyLo,
    .hotkeyKeyHi, .convertMods, .convertKeyLo, .convertKeyHi, .configGeneration, .diagFlags] ++
    (List.finRange 1024).map .reserved

/-- The fields in the order in which `Write` copies them: all but the epoch. -/
@[irreducible] def writeOrder : List SharedField :=
  [.magic, .structVersion, .structSize, .flags, .inputMethod, .spellCheck, .optimizeLevel,
    .featureFlags 0, .featureFlags 1, .extFeatureFlags, .codeTable, .hotkeyMods, .hotkeyKeyLo,
    .hotkeyKeyHi, .convertMods, .convertKeyLo, .convertKeyHi, .configGeneration, .diagFlags] ++
    (List.finRange 1024).map .reserved

def SEQLOCK_MAX_RETRIES : Nat := 3

/-- An interlocked operation on the flags word. -/
inductive FlagOp where
  | ToggleFlag (flagBit : BitVec 32)
  | SetOrClearFlag (flagBit : BitVec 32) (set : Bool)
  deriving DecidableEq, Repr

/-- The flags word after the operation (`InterlockedXor`, `InterlockedOr`, `InterlockedAnd`). -/
def FlagOp.apply : FlagOp → BitVec 32 → BitVec 32
  | .ToggleFlag flagBit, flags => flags ^^^ flagBit
  | .SetOrClearFlag flagBit true, flags => flags ||| flagBit
  | .SetOrClearFlag flagBit false, flags => flags &&& ~~~flagBit

/-- Where a process stands in a call. -/
inductive Call where
  | idle
  | readMagic
  | readEpoch (i : Nat) (state : SharedState)
  | readCopy (i : Nat) (before : BitVec 32) (state : SharedState) (rest : List SharedField)
  | writeLoad (state : SharedState)
  | writeMark (state : SharedState) (seq : BitVec 32)
  | writeCopy (state : SharedState) (seq : BitVec 32) (rest : List SharedField)
  | epochMagic
  | epochLoad
  | flagMagic (op : FlagOp)
  | flagApply (op : FlagOp)

/-- `Read` is under way. -/
def Call.isReading : Call → Bool
  | .readMagic | .readEpoch _ _ | .readCopy _ _ _ _ => true
  | _ => false

/-- Shared memory and the processes `π`. -/
structure Shared (π : Type) where
  mem : SharedState
  call : π → Call
  /-- What the last `Read` of a process returned. -/
  result : π → SharedState
  /-- What the last `ReadEpoch` of a process returned. -/
  epochSeen : π → BitVec 32
  /-- What the calls of `Write` were given. -/
  passed : List SharedState
  /-- The flag operations that took effect, in order. -/
  applied : List FlagOp
  /-- Whether the flags word changed since a process last copied it. -/
  stale : π → Bool

/-- A process begins a call or takes its next step. -/
inductive SharedEvent (π : Type) where
  | Read (p : π)
  | Write (p : π) (state : SharedState)
  | ReadEpoch (p : π)
  | flag (p : π) (op : FlagOp)
  | step (p : π)

/-- The process of an event. -/
def SharedEvent.process {π : Type} : SharedEvent π → π
  | .Read p | .Write p _ | .ReadEpoch p | .flag p _ | .step p => p

namespace Shared

variable {π : Type}

/-- Shared memory before any call. -/
def init (first : SharedState) : Shared π where
  mem := first
  call _ := .idle
  result _ := .zero
  epochSeen _ := 0
  passed := []
  applied := []
  stale _ := false

/-- A store to shared memory. -/
def store (s : Shared π) (f : SharedField) (v : BitVec f.width) : Shared π :=
  { s with mem := Function.update s.mem f v }

variable [DecidableEq π]

/-- A process moves on in its call. -/
def goto (s : Shared π) (p : π) (c : Call) : Shared π :=
  { s with call := Function.update s.call p c }

/-- `Read` returns. -/
def finish (s : Shared π) (p : π) (state : SharedState) : Shared π :=
  { s with call := Function.update s.call p .idle, result := Function.update s.result p state }

/-- `Read` copies a field. -/
def copyField (s : Shared π) (p : π) (i : Nat) (before : BitVec 32) (state : SharedState)
    (f : SharedField) (rest : List SharedField) : Shared π :=
  { s with
    call := Function.update s.call p (.readCopy i before (Function.update state f (s.mem f)) rest)
    stale := if f = .flags then Function.update s.stale p false else s.stale }

/-- A flag operation takes effect. -/
def applyFlag (s : Shared π) (p : π) (op : FlagOp) : Shared π :=
  { s.store .flags (op.apply (s.mem .flags)) with
    call := Function.update s.call p .idle
    applied := s.applied ++ [op]
    stale := if op.apply (s.mem .flags) = s.mem .flags then s.stale else fun _ => true }

/-- One step of a process in its call. -/
def stepCall (s : Shared π) (p : π) : Shared π :=
  match s.call p with
  | .idle => s
  | .readMagic =>
    if s.mem .magic = SharedState.MAGIC_VALUE then s.goto p (.readEpoch 0 .zero) else s.finish p .zero
  | .readEpoch i state => s.goto p (.readCopy i (s.mem .epoch) state readOrder)
  | .readCopy i before state (f :: rest) => s.copyField p i before state f rest
  | .readCopy i before state [] =>
    if before = s.mem .epoch ∧ Seqlock.odd before = false then s.finish p state
    else if i + 1 < SEQLOCK_MAX_RETRIES then s.goto p (.readEpoch (i + 1) state)
    else s.finish p .zero
  | .writeLoad state => s.goto p (.writeMark state (s.mem .epoch + 1))
  | .writeMark state seq => (s.store .epoch seq).goto p (.writeCopy state seq writeOrder)
  | .writeCopy state seq (f :: rest) => (s.store f (state f)).goto p (.writeCopy state seq rest)
  | .writeCopy _ seq [] => (s.store .epoch (seq + 1)).goto p .idle
  | .epochMagic =>
    if s.mem .magic = SharedState.MAGIC_VALUE then s.goto p .epochLoad
    else { s.goto p .idle with epochSeen := Function.update s.epochSeen p 0 }
  | .epochLoad => { s.goto p .idle with epochSeen := Function.update s.epochSeen p (s.mem .epoch) }
  | .flagMagic op =>
    if s.mem .magic = SharedState.MAGIC_VALUE then s.goto p (.flagApply op) else s.goto p .idle
  | .flagApply op => s.applyFlag p op

/-- A process that is in no call begins one. -/
def start (s : Shared π) (p : π) (c : Call) : Shared π :=
  match s.call p with
  | .idle => s.goto p c
  | _ => s

/-- One event. -/
def step (s : Shared π) : SharedEvent π → Shared π
  | .Read p => s.start p .readMagic
  | .Write p state =>
    match s.call p with
    | .idle => { s.goto p (.writeLoad state) with passed := state :: s.passed }
    | _ => s
  | .ReadEpoch p => s.start p .epochMagic
  | .flag p op => s.start p (.flagMagic op)
  | .step p => s.stepCall p

end Shared

/-- An interleaving of the steps of all processes. -/
def sharedRun {π : Type} [DecidableEq π] (first : SharedState) (events : List (SharedEvent π)) :
    Shared π :=
  Machine.run Shared.step (Shared.init first) events

/-- One of two. -/
lemma eq_zero_or_one : ∀ k : Fin 2, k = 0 ∨ k = 1 := by decide

/-- Every field is read. -/
lemma mem_readOrder (f : SharedField) : f ∈ readOrder := by
  cases f with
  | featureFlags k => obtain rfl | rfl := eq_zero_or_one k <;> simp [readOrder]
  | reserved k => simp [readOrder]
  | _ => simp [readOrder]

/-- Every field but the epoch is written. -/
lemma mem_writeOrder {f : SharedField} : f ∈ writeOrder ↔ f ≠ .epoch := by
  cases f with
  | featureFlags k => obtain rfl | rfl := eq_zero_or_one k <;> simp [writeOrder]
  | reserved k => simp [writeOrder]
  | _ => simp [writeOrder]

/-- A call of `Read` without interruption. -/
def readCall {π : Type} (p : π) : List (SharedEvent π) :=
  [.Read p, .step p, .step p] ++ List.replicate readOrder.length (.step p) ++ [.step p]

/-- A call of `Write` up to its copy. -/
def writeBegin {π : Type} (p : π) (state : SharedState) : List (SharedEvent π) :=
  [.Write p state, .step p, .step p]

/-- The copy of `Write` and its last store. -/
def writeEnd {π : Type} (p : π) : List (SharedEvent π) :=
  List.replicate writeOrder.length (.step p) ++ [.step p]

/-- A call of `Write` without interruption. -/
def writeCall {π : Type} (p : π) (state : SharedState) : List (SharedEvent π) :=
  writeBegin p state ++ writeEnd p

/-- The steps of a reading. -/
lemma mem_readCall {π : Type} {p : π} {e} (h : e ∈ readCall p) : e = .Read p ∨ e = .step p := by
  simp only [readCall, List.mem_append, List.mem_cons, List.mem_replicate, List.not_mem_nil] at h
  tauto

/-- A record with some of its fields copied from another. -/
def copyFields (src dst : SharedState) (fields : List SharedField) : SharedState :=
  fun f => if f ∈ fields then src f else dst f

/-- No field is copied. -/
lemma copyFields_nil {src dst : SharedState} : copyFields src dst [] = dst := by
  funext f
  simp [copyFields]

/-- The first field is copied first. -/
lemma copyFields_cons {src dst : SharedState} {f fields} :
    copyFields src (Function.update dst f (src f)) fields = copyFields src dst (f :: fields) := by
  funext f'
  by_cases hf : f' = f
  · subst hf
    simp [copyFields]
  · simp [copyFields, hf]

/-- All fields are copied. -/
lemma copyFields_readOrder {src dst : SharedState} : copyFields src dst readOrder = src := by
  funext f
  simp [copyFields, mem_readOrder]

namespace Shared

variable {π : Type} [DecidableEq π] {s : Shared π} {p : π}

/-- `Read` gets to its copy. -/
lemma run_readBegin (hs : s.call p = .idle) (hmagic : s.mem .magic = SharedState.MAGIC_VALUE) :
    Machine.run step s [.Read p, .step p, .step p] =
      s.goto p (.readCopy 0 (s.mem .epoch) .zero readOrder) := by
  simp [step, start, stepCall, hs, goto, hmagic]

/-- `Write` gets to its copy. -/
lemma run_writeBegin {state} (hs : s.call p = .idle) :
    Machine.run step s (writeBegin p state) =
      { (s.store .epoch (s.mem .epoch + 1)).goto p
        (.writeCopy state (s.mem .epoch + 1) writeOrder) with passed := state :: s.passed } := by
  simp [writeBegin, step, stepCall, hs, goto, store]

/-- The rest of a copy by `Read`, without interruption. -/
lemma run_readCopy {i before state rest} (hs : s.call p = .readCopy i before state rest) :
    Machine.run step s (List.replicate rest.length (.step p)) =
      { s with
        call := Function.update s.call p (.readCopy i before (copyFields s.mem state rest) [])
        stale := if .flags ∈ rest then Function.update s.stale p false else s.stale } := by
  induction rest generalizing s state with
  | nil =>
    rw [copyFields_nil, ← hs, Function.update_eq_self]
    rfl
  | cons f rest ih =>
    have hstep : step s (.step p) = s.copyField p i before state f rest := by
      simp only [step, stepCall, hs]
    rw [List.length_cons, List.replicate_succ, Machine.run_cons, hstep,
      ih (s := s.copyField p i before state f rest) (Function.update_self ..)]
    simp only [copyField, Function.update_idem, copyFields_cons, List.mem_cons]
    congr 1
    by_cases hf : f = .flags <;> by_cases hrest : .flags ∈ rest <;> simp [hf, hrest, eq_comm]

/-- The rest of a copy by `Write`, without interruption. -/
lemma run_writeCopy {state seq rest} (hs : s.call p = .writeCopy state seq rest) :
    Machine.run step s (List.replicate rest.length (.step p)) =
      { s with
        mem := copyFields state s.mem rest
        call := Function.update s.call p (.writeCopy state seq []) } := by
  induction rest generalizing s with
  | nil =>
    rw [copyFields_nil, ← hs, Function.update_eq_self]
    rfl
  | cons f rest ih =>
    have hstep : step s (.step p) = (s.store f (state f)).goto p (.writeCopy state seq rest) := by
      simp only [step, stepCall, hs]
    rw [List.length_cons, List.replicate_succ, Machine.run_cons, hstep,
      ih (s := (s.store f (state f)).goto p (.writeCopy state seq rest)) (Function.update_self ..)]
    simp only [goto, store, Function.update_idem, copyFields_cons]

/-- `Read` without interruption returns the shared record. -/
lemma run_readCall (hs : s.call p = .idle) (hmagic : s.mem .magic = SharedState.MAGIC_VALUE)
    (heven : Seqlock.odd (s.mem .epoch) = false) :
    Machine.run step s (readCall p) =
      { s with
        result := Function.update s.result p s.mem
        stale := Function.update s.stale p false } := by
  rw [readCall, Machine.run_append, Machine.run_append, run_readBegin hs hmagic,
    run_readCopy (s := s.goto p _) (Function.update_self ..)]
  simp [step, stepCall, goto, finish, heven, copyFields_readOrder, mem_readOrder, ← hs]

/-- The rest of `Write` from its copy on, without interruption. -/
lemma run_writeEnd {state seq} (hs : s.call p = .writeCopy state seq writeOrder) :
    Machine.run step s (writeEnd p) =
      { s with
        mem := Function.update (copyFields state s.mem writeOrder) .epoch (seq + 1)
        call := Function.update s.call p .idle } := by
  rw [writeEnd, Machine.run_append, run_writeCopy hs]
  simp [step, stepCall, goto, store]

/-- `Write` without interruption adds two to the epoch and stores all other fields. -/
lemma run_writeCall {state} (hs : s.call p = .idle) :
    Machine.run step s (writeCall p state) =
      { s with
        mem := Function.update (copyFields state s.mem writeOrder) .epoch (s.mem .epoch + 1 + 1)
        passed := state :: s.passed } := by
  rw [writeCall, Machine.run_append, run_writeBegin hs,
    run_writeEnd (s := { (s.store .epoch _).goto p _ with passed := _ }) (Function.update_self ..)]
  simp only [goto, store, Function.update_idem]
  congr 1
  · funext f
    by_cases hf : f = .epoch
    · subst hf
      simp
    · simp [copyFields, hf]
  · rw [← hs, Function.update_eq_self]

section Guarded
variable {ok : Shared π → SharedEvent π → Prop}

/-- A reading meets the guard field by field. -/
lemma guarded_readCopy {i before state rest} (hs : s.call p = .readCopy i before state rest)
    (hok : ∀ t : Shared π, (t.call p).isReading → ok t (.step p)) :
    Machine.Guarded step ok s (List.replicate rest.length (.step p)) := by
  induction rest generalizing s state with
  | nil => trivial
  | cons f rest ih =>
    refine ⟨hok s (by rw [hs]; rfl), ?_⟩
    have hstep : step s (.step p) = s.copyField p i before state f rest := by
      simp only [step, stepCall, hs]
    rw [hstep]
    exact ih (Function.update_self ..)

/-- `Read` without interruption is allowed when each of its steps is. -/
lemma guarded_readCall (hs : s.call p = .idle) (hmagic : s.mem .magic = SharedState.MAGIC_VALUE)
    (hbegin : ok s (.Read p)) (hok : ∀ t : Shared π, (t.call p).isReading → ok t (.step p)) :
    Machine.Guarded step ok s (readCall p) := by
  have hcall : (s.goto p (.readCopy 0 (s.mem .epoch) .zero readOrder)).call p =
      .readCopy 0 (s.mem .epoch) .zero readOrder := Function.update_self ..
  have hcopy := @guarded_readCopy _ _ _ _ ok _ _ _ _ hcall hok
  rw [readCall, Machine.guarded_append, Machine.guarded_append, Machine.run_append,
    run_readBegin hs hmagic, run_readCopy hcall]
  refine ⟨⟨⟨hbegin, hok _ ?_, hok _ ?_, trivial⟩, hcopy⟩, hok _ ?_, trivial⟩
  · simp [step, start, hs, goto, Call.isReading]
  · simp [step, start, stepCall, hs, goto, hmagic, Call.isReading]
  · simp [Call.isReading]

/-- So does a writing. -/
lemma guarded_writeCopy {state seq rest} (hs : s.call p = .writeCopy state seq rest)
    (hok : ∀ (t : Shared π) rest, t.call p = .writeCopy state seq rest → t.stale = s.stale →
      ok t (.step p)) :
    Machine.Guarded step ok s (List.replicate rest.length (.step p)) := by
  induction rest generalizing s with
  | nil => trivial
  | cons f rest ih =>
    refine ⟨hok s (f :: rest) hs rfl, ?_⟩
    have hstep : step s (.step p) = (s.store f (state f)).goto p (.writeCopy state seq rest) := by
      simp only [step, stepCall, hs]
    rw [hstep]
    exact ih (Function.update_self ..) hok

/-- `Write` without interruption is allowed when each of its steps is. -/
lemma guarded_writeCall {state} (hs : s.call p = .idle) (hbegin : ok s (.Write p state))
    (hload : ∀ t : Shared π, t.call p = .writeLoad state → t.mem = s.mem → ok t (.step p))
    (hmark : ∀ (t : Shared π) seq, t.call p = .writeMark state seq → ok t (.step p))
    (hok : ∀ (t : Shared π) seq rest, t.call p = .writeCopy state seq rest → t.stale = s.stale →
      ok t (.step p)) :
    Machine.Guarded step ok s (writeCall p state) := by
  have hcall : ({ (s.store .epoch (s.mem .epoch + 1)).goto p
      (.writeCopy state (s.mem .epoch + 1) writeOrder) with passed := state :: s.passed }).call p =
        .writeCopy state (s.mem .epoch + 1) writeOrder := Function.update_self ..
  have hcopy := @guarded_writeCopy _ _ _ _ ok _ _ _ hcall fun t => hok t _
  rw [writeCall, writeEnd, Machine.guarded_append, Machine.guarded_append, run_writeBegin hs,
    run_writeCopy hcall]
  refine ⟨⟨hbegin, hload _ ?_ ?_, hmark _ (s.mem .epoch + 1) ?_, trivial⟩, hcopy,
    hok _ (s.mem .epoch + 1) [] ?_ rfl, trivial⟩
  · simp [step, hs, goto]
  · simp [step, hs, goto]
  · simp [step, stepCall, hs, goto]
  · simp

end Guarded
end Shared
end NextKey
