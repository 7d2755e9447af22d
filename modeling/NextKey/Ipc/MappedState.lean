import NextKey.Ipc.ContextAnchor
import NextKey.Ipc.WriteEpoch

/-!
# The whole mapping

Model of `Read` and `Write` of `core/ipc/SharedStateManager.cpp` as calls that nothing interrupts, on
the whole mapping: the record of the configuration and the context anchor, which the text service
writes under a sequence lock of its own. A manager has a mapping that it may write.

What `Write` stores is read back as it was given, but for the epoch and the anchor, when the epoch was
even before and the state carries the magic value (`read_write`).
-/

namespace NextKey

/-- The mapping (C++ `SharedState`). -/
structure MappedState where
  fields : SharedState
  contextAnchor : HookContextAnchor

namespace MappedState

/-- The state `SharedState{}`. -/
def zero : MappedState := ⟨.zero, {}⟩

/-- A store to the mapping. -/
def store (m : MappedState) (f : SharedField) (v : BitVec f.width) : MappedState :=
  { m with fields := Function.update m.fields f v }

/-- C++ `Write` -/
def Write (m state : MappedState) : MappedState :=
  let seq := m.fields .epoch + 1
  let m := m.store .epoch seq
  let m := writeOrder.foldl (fun m f => m.store f (state.fields f)) m
  m.store .epoch (seq + 1)

/-- The loop of `Read`: the state that was copied last, when a copy is accepted. -/
def readLoop (m : MappedState) : Nat → MappedState
  | 0 => zero
  | retries + 1 =>
    let before := m.fields .epoch
    let state := m
    let after := m.fields .epoch
    if before = after ∧ Seqlock.odd before = false then state else m.readLoop retries

/-- C++ `Read` -/
def Read (m : MappedState) : MappedState :=
  if m.fields .magic ≠ SharedState.MAGIC_VALUE then zero else m.readLoop SEQLOCK_MAX_RETRIES

variable {m state : MappedState}

/-- All fields are stored. -/
lemma foldl_store {fields : List SharedField} :
    fields.foldl (fun m f => m.store f (state.fields f)) m =
      { m with fields := copyFields state.fields m.fields fields } := by
  induction fields generalizing m with
  | nil => rw [copyFields_nil]; rfl
  | cons f fields ih =>
    rw [List.foldl_cons, ih]
    exact congrArg (MappedState.mk · m.contextAnchor) copyFields_cons

/-- `Write` stores every field but the epoch, which it moves on by two, and leaves the anchor alone. -/
lemma Write_eq : m.Write state =
    { m with fields := Function.update state.fields .epoch (m.fields .epoch + 1 + 1) } := by
  rw [Write, foldl_store]
  refine congrArg (MappedState.mk · m.contextAnchor) ?_
  funext f
  -- the epoch is the one field that is not copied
  by_cases hf : f = .epoch
  · subst hf
    simp only [Function.update_self]
  · simp only [Function.update_of_ne hf, copyFields, if_pos (mem_writeOrder.2 hf)]

/-- The steps of a call of `Write` that nothing interrupts. -/
lemma run_writeCall_eq {π : Type} [DecidableEq π] {s : Shared π} {p : π} (hs : s.call p = .idle)
    (hmem : s.mem = m.fields) :
    (Machine.run Shared.step s (writeCall p state.fields)).mem = (m.Write state).fields := by
  rw [Shared.run_writeCall hs, Write_eq, hmem]
  funext f
  by_cases hf : f = .epoch
  · subst hf
    simp only [Function.update_self]
  · simp only [Function.update_of_ne hf, copyFields, if_pos (mem_writeOrder.2 hf)]

/-- A mapping at rest with the magic value is read as it is. -/
lemma Read_of_even (hmagic : m.fields .magic = SharedState.MAGIC_VALUE)
    (heven : Seqlock.odd (m.fields .epoch) = false) : m.Read = m := by
  rw [Read, if_neg (not_not.2 hmagic), SEQLOCK_MAX_RETRIES, readLoop]
  exact if_pos ⟨rfl, heven⟩

/-- The steps of a call of `Read` that nothing interrupts. -/
lemma run_readCall_eq {π : Type} [DecidableEq π] {s : Shared π} {p : π} (hs : s.call p = .idle)
    (hmem : s.mem = m.fields) (hmagic : m.fields .magic = SharedState.MAGIC_VALUE)
    (heven : Seqlock.odd (m.fields .epoch) = false) :
    (Machine.run Shared.step s (readCall p)).result p = m.Read.fields := by
  rw [Shared.run_readCall hs (by rw [hmem, hmagic]) (by rw [hmem, heven]), Read_of_even hmagic heven]
  exact (Function.update_self ..).trans hmem

end MappedState

/-- What the mapping and a `Read` are meant to be after a `Write`. -/
structure WritesThrough (m state : MappedState) : Prop where
  fields : ∀ f, f ≠ .epoch → (m.Write state).Read.fields f = state.fields f
  anchor : (m.Write state).contextAnchor = m.contextAnchor
  even : Seqlock.odd ((m.Write state).fields .epoch) = false
  newer : (m.Write state).fields .epoch = m.fields .epoch + 2 ∧
    (m.Write state).fields .epoch ≠ m.fields .epoch

section
variable {m state : MappedState}

/-- A write leaves the anchor. -/
lemma Write_anchor : (m.Write state).contextAnchor = m.contextAnchor := by
  rw [MappedState.Write_eq]

/-- A write counts the epoch up by two. -/
lemma Write_epoch : (m.Write state).fields .epoch = m.fields .epoch + 1 + 1 := by
  rw [MappedState.Write_eq]
  exact Function.update_self SharedField.epoch _ state.fields

/-- A write stores every other field. -/
lemma Write_field {f : SharedField} (hf : f ≠ .epoch) :
    (m.Write state).fields f = state.fields f := by
  rw [MappedState.Write_eq]
  exact Function.update_of_ne hf ..

/-- So the epoch is another one. -/
lemma Write_newer : (m.Write state).fields .epoch = m.fields .epoch + 2 ∧
    (m.Write state).fields .epoch ≠ m.fields .epoch := by
  rw [Write_epoch, BitVec.add_assoc]
  refine ⟨rfl, fun hsame => ?_⟩
  have htwo := (BitVec.add_right_eq_self).1 hsame
  exact absurd htwo (by decide)

/-- An even epoch stays even. -/
lemma Write_even (heven : Seqlock.odd (m.fields .epoch) = false) :
    Seqlock.odd ((m.Write state).fields .epoch) = false := by
  rw [Write_epoch, odd_add_one, odd_add_one, heven]
  rfl

/-- A state without the magic value is not read. -/
lemma Read_unmarked (hinvalid : state.fields .magic ≠ SharedState.MAGIC_VALUE) :
    (m.Write state).Read = .zero := by
  have hmagic : (m.Write state).fields .magic = state.fields .magic := Write_field (by decide)
  exact if_pos (hmagic ▸ hinvalid)

end

/-- `Write` leaves the anchor alone and moves the epoch on by two. From an even epoch it leaves an even
    one, and a state with the magic value is then read back in every other field; a state without it is
    not read at all. -/
theorem read_write (m state : MappedState) :
    (m.Write state).contextAnchor = m.contextAnchor ∧
      (m.Write state).fields .epoch = m.fields .epoch + 2 ∧
      (m.Write state).fields .epoch ≠ m.fields .epoch ∧
      (Seqlock.odd (m.fields .epoch) = false →
        Seqlock.odd ((m.Write state).fields .epoch) = false ∧
        (state.fields .magic = SharedState.MAGIC_VALUE →
          ∀ f, f ≠ .epoch → (m.Write state).Read.fields f = state.fields f) ∧
        (state.fields .magic ≠ SharedState.MAGIC_VALUE → (m.Write state).Read = .zero)) := by
  have hmagic : (m.Write state).fields .magic = state.fields .magic := Write_field (by decide)
  refine ⟨Write_anchor, Write_newer.1, Write_newer.2, fun heven => ⟨Write_even heven, ?_, ?_⟩⟩
  · intro hvalid f hf
    rw [MappedState.Read_of_even (hmagic.trans hvalid) (Write_even heven)]
    exact Write_field hf
  · exact Read_unmarked

/-- The flags are changed in the mapping of `InitDefaults`. -/
theorem read_write_flags :
    (MappedState.Write ⟨SharedState.InitDefaults, {}⟩
      ⟨Function.update SharedState.InitDefaults .flags 7, { isAvailable := 1 }⟩).Read.fields .flags =
      7 := by
  obtain ⟨-, -, -, heven⟩ := read_write ⟨SharedState.InitDefaults, {}⟩
    ⟨Function.update SharedState.InitDefaults .flags 7, { isAvailable := 1 }⟩
  exact ((heven (by decide)).2.1 (by decide) .flags (by decide)).trans (by decide)

/-- A state without the magic value is stored, and then nothing is read. -/
theorem not_writesThrough_unmarked : ¬∀ m state : MappedState, WritesThrough m state := by
  intro h
  have hflags := (h ⟨SharedState.InitDefaults, {}⟩
    ⟨Function.update SharedState.InitDefaults .magic 0, {}⟩).fields .flags (by decide)
  rw [Read_unmarked (by decide)] at hflags
  exact absurd hflags (by decide)

end NextKey
