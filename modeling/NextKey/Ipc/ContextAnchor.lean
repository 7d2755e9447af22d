import Mathlib.Data.List.FinRange
import NextKey.Lib.Seqlock

/-!
# The context anchor

Model of `HookContextAnchor` in `core/ipc/SharedState.h` with `ReadAnchorSeqlock` and
`WriteAnchorSeqlock`: the text service publishes the surroundings of the caret under a sequence lock
of their own, and the hook reads them. Every access to shared memory is a step. The fences order the
accesses as the steps are ordered, and padding is not copied.

The writer is meant to be the only one. Two calls that overlap bring the counter back to an even value
while both are storing, and a reader accepts what it finds.
-/

namespace NextKey

/-- The fields of the anchor under its generation. -/
inductive AnchorField where
  | isAvailable
  | isSentenceStart
  | isLineStart
  | isWordStart
  | syllableLen
  | currentSyllable (k : Fin 16)
  deriving DecidableEq, Repr

/-- Width of a field in bits. -/
def AnchorField.width : AnchorField → Nat
  | .currentSyllable _ => 16
  | _ => 8

/-- The document context before the caret (C++ `HookContextAnchor`). -/
structure HookContextAnchor where
  /-- odd = writing, even = stable -/
  generation : BitVec 32 := 0
  isAvailable : BitVec 8 := 0
  isSentenceStart : BitVec 8 := 0
  isLineStart : BitVec 8 := 0
  isWordStart : BitVec 8 := 0
  syllableLen : BitVec 8 := 0
  currentSyllable : Vector (BitVec 16) 16 := .replicate 16 0
  deriving DecidableEq, Repr

/-- The values of the fields under the generation. -/
abbrev AnchorRecord := Seqlock.Record fun f : AnchorField => BitVec f.width

namespace HookContextAnchor

/-- The fields of an anchor. -/
def fields (a : HookContextAnchor) : AnchorRecord
  | .isAvailable => a.isAvailable
  | .isSentenceStart => a.isSentenceStart
  | .isLineStart => a.isLineStart
  | .isWordStart => a.isWordStart
  | .syllableLen => a.syllableLen
  | .currentSyllable k => a.currentSyllable[k]

/-- The anchor with the given generation and fields. -/
def ofRecord (generation : BitVec 32) (r : AnchorRecord) : HookContextAnchor where
  generation := generation
  isAvailable := r .isAvailable
  isSentenceStart := r .isSentenceStart
  isLineStart := r .isLineStart
  isWordStart := r .isWordStart
  syllableLen := r .syllableLen
  currentSyllable := .ofFn fun k => r (.currentSyllable k)

/-- An anchor from its fields. -/
lemma ofRecord_fields {generation} {a : HookContextAnchor} :
    ofRecord generation a.fields = { a with generation := generation } := by
  simp [ofRecord, fields]

end HookContextAnchor

/-- The order in which both functions go through the fields. -/
def anchorOrder : List AnchorField :=
  [.isAvailable, .isSentenceStart, .isLineStart, .isWordStart, .syllableLen] ++
    (List.finRange 16).map .currentSyllable

/-- Every field of the anchor is listed. -/
lemma mem_anchorOrder (f : AnchorField) : f ∈ anchorOrder := by
  cases f <;> simp [anchorOrder]

section Threads
variable {ω ρ : Type} [DecidableEq ω] [DecidableEq ρ]

/-- Shared memory with writers `ω` and readers `ρ`. -/
abbrev AnchorState (ω ρ : Type) :=
  Seqlock.State (fun f : AnchorField => BitVec f.width) HookContextAnchor ω ρ 32

/-- A thread calls `WriteAnchorSeqlock` or `ReadAnchorSeqlock`, or takes a step in its call. -/
abbrev AnchorEvent (ω ρ : Type) :=
  Seqlock.Event (fun f : AnchorField => BitVec f.width) HookContextAnchor ω ρ

/-- One step of a thread (C++ `WriteAnchorSeqlock`, `ReadAnchorSeqlock`). -/
def anchorStep : AnchorState ω ρ → AnchorEvent ω ρ → AnchorState ω ρ :=
  Seqlock.step HookContextAnchor.fields anchorOrder 3

/-- Shared memory before any call. -/
def anchorInit (first : HookContextAnchor) : AnchorState ω ρ :=
  Seqlock.init first.generation first.fields

/-- An interleaving of the steps of all threads. -/
def anchorRun (first : HookContextAnchor) (events : List (AnchorEvent ω ρ)) : AnchorState ω ρ :=
  Machine.run anchorStep (anchorInit first) events

/-- What the successful calls of `ReadAnchorSeqlock` returned. -/
def snapshots (s : AnchorState ω ρ) : List HookContextAnchor :=
  s.reads.map fun r => .ofRecord r.1 r.2

/-- Whether a snapshot agrees with an anchor in every field but the generation. -/
def HookContextAnchor.Copies (snapshot a : HookContextAnchor) : Prop :=
  snapshot = { a with generation := snapshot.generation }

instance {snapshot a : HookContextAnchor} : Decidable (snapshot.Copies a) :=
  inferInstanceAs (Decidable (snapshot = { a with generation := snapshot.generation }))

/-- Up to the generation a snapshot is the first anchor or that of a finished call, when the calls of
    `WriteAnchorSeqlock` do not overlap. -/
lemma exists_copies {first : HookContextAnchor} {events : List (AnchorEvent ω ρ)}
    (heven : Seqlock.odd first.generation = false) (hcalls : events.countP (·.isWrite) < 2 ^ 31)
    (h : Machine.Guarded anchorStep Seqlock.Alone (anchorInit first) events) {snapshot}
    (hmem : snapshot ∈ snapshots (anchorRun first events)) :
    ∃ a ∈ first :: (anchorRun first events).completed, snapshot.Copies a := by
  obtain ⟨r, hr, rfl⟩ := List.mem_map.1 hmem
  have hroom : 2 * events.countP (·.isWrite) < 2 ^ 32 := by omega
  obtain hfirst | ⟨a, ha, hfields⟩ :=
    Seqlock.reads_of_alone (by decide) heven mem_anchorOrder hroom h r hr
  · refine ⟨first, List.mem_cons_self, ?_⟩
    rw [hfirst]
    exact HookContextAnchor.ofRecord_fields
  · refine ⟨a, List.mem_cons_of_mem first ha, ?_⟩
    rw [hfields]
    exact HookContextAnchor.ofRecord_fields

end Threads

/-- A call of `WriteAnchorSeqlock` without interruption. -/
def writeAnchor {ω : Type} (t : ω) (a : HookContextAnchor) : List (AnchorEvent ω Unit) :=
  .write t a :: List.replicate (anchorOrder.length + 1) (.writerStep t)

/-- A call of `ReadAnchorSeqlock` without interruption. -/
def readAnchor {ω : Type} : List (AnchorEvent ω Unit) :=
  .read () (HookContextAnchor.fields {}) :: List.replicate (anchorOrder.length + 2) (.readerStep ())

/-- With one writer and fewer than `2 ^ 31` calls every snapshot is, in every field but the
    generation, the first anchor or that of one finished call. -/
theorem oneWriter_snapshot {ρ : Type} [DecidableEq ρ] {first : HookContextAnchor}
    {events : List (AnchorEvent Unit ρ)} (heven : Seqlock.odd first.generation = false)
    (hcalls : events.countP (·.isWrite) < 2 ^ 31) :
    ∀ snapshot ∈ snapshots (anchorRun first events),
      ∃ a ∈ first :: (anchorRun first events).completed, snapshot.Copies a :=
  fun _ hmem => exists_copies heven hcalls Seqlock.guarded_of_subsingleton hmem

/-- A writer and then a reader: the one snapshot copies the anchor written. -/
theorem oneWriter_snapshot_once :
    (snapshots (anchorRun {} (writeAnchor () { isWordStart := 1 } ++ readAnchor))).length = 1 ∧
      ∀ snapshot ∈ snapshots (anchorRun {} (writeAnchor () { isWordStart := 1 } ++ readAnchor)),
        ∃ a ∈ {} :: (anchorRun {} (writeAnchor () { isWordStart := 1 } ++ readAnchor)).completed,
          snapshot.Copies a :=
  ⟨by decide +kernel, oneWriter_snapshot (by decide) (by decide)⟩

/-- The generation of a snapshot is the counter, not the one the writer was given. -/
theorem oneWriter_snapshot_generation :
    ¬∀ events : List (AnchorEvent Unit Unit), events.countP (·.isWrite) < 2 ^ 31 →
      ∀ snapshot ∈ snapshots (anchorRun {} events),
        snapshot ∈ {} :: (anchorRun {} events).completed := by
  intro h
  have hall := h (writeAnchor () { generation := 7, isWordStart := 1 } ++ readAnchor) (by decide)
  revert hall
  decide +kernel

/-- What the calls of `WriteAnchorSeqlock` were given, finished or not. -/
def written {ω ρ : Type} (events : List (AnchorEvent ω ρ)) : List HookContextAnchor :=
  events.filterMap fun
    | .write _ a => some a
    | _ => none

/-- With two writers whose calls do not overlap, and fewer than `2 ^ 31` calls, every snapshot copies
    the first anchor or that of one finished call. -/
theorem twoWriters_snapshot {ρ : Type} [DecidableEq ρ] {first : HookContextAnchor}
    {events : List (AnchorEvent Bool ρ)} (heven : Seqlock.odd first.generation = false)
    (hcalls : events.countP (·.isWrite) < 2 ^ 31)
    (h : Machine.Guarded anchorStep Seqlock.Alone (anchorInit first) events) :
    ∀ snapshot ∈ snapshots (anchorRun first events),
      ∃ a ∈ first :: (anchorRun first events).completed, snapshot.Copies a :=
  fun _ hmem => exists_copies heven hcalls h hmem

instance {s : AnchorState Bool Unit} : ∀ {e : AnchorEvent Bool Unit}, Decidable (Seqlock.Alone s e)
  | .write t _ => inferInstanceAs (Decidable ((s.writers t).isIdle → ∀ t', (s.writers t').isIdle))
  | .writerStep _ => inferInstanceAs (Decidable True)
  | .read _ _ => inferInstanceAs (Decidable True)
  | .readerStep _ => inferInstanceAs (Decidable True)

/-- Two writers one after the other, each followed by a read. -/
def twoWritersInTurn : List (AnchorEvent Bool Unit) :=
  writeAnchor false { isAvailable := 1, syllableLen := 3 } ++ readAnchor ++
    (writeAnchor true { isAvailable := 2, isWordStart := 1 } ++ readAnchor)

/-- Two writers in turn: the snapshots copy what they wrote. -/
theorem twoWriters_snapshot_inTurn :
    (snapshots (anchorRun {} twoWritersInTurn)).length = 2 ∧
      ∀ snapshot ∈ snapshots (anchorRun {} twoWritersInTurn),
        ∃ a ∈ {} :: (anchorRun {} twoWritersInTurn).completed, snapshot.Copies a :=
  ⟨by decide +kernel, twoWriters_snapshot (by decide) (by decide) (by decide +kernel)⟩

/-- Two calls that begin one after the other make the counter even; a reader then accepts the first
    field of one writer with the other fields of the other. -/
def tornSchedule : List (AnchorEvent Bool Unit) :=
  [.write false { isAvailable := 1, syllableLen := 3 },
    .write true { isAvailable := 2, isWordStart := 1 },
    .writerStep true, .writerStep false] ++
    List.replicate (anchorOrder.length - 1) (.writerStep true) ++ readAnchor

/-- A snapshot can mix the anchors of two overlapping calls. -/
theorem twoWriters_torn :
    ¬∀ events : List (AnchorEvent Bool Unit), ∀ snapshot ∈ snapshots (anchorRun {} events),
      ∃ a ∈ {} :: written events, snapshot.Copies a := by
  intro h
  have hall := h tornSchedule
  revert hall
  decide +kernel

end NextKey
