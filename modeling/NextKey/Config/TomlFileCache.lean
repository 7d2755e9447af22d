import Mathlib.Data.List.Basic
import Mathlib.Logic.Function.Basic
import Mathlib.Order.Lattice
import NextKey.Lib.Machine

/-!
# The cache of parsed configuration files

Model of `TomlFileCache` and of the end of `WriteToml` in `core/config/ConfigManager.cpp`, for one path.
Threads load and save at the same time; each step is what one of them does to the file, or to the cache
while it holds the mutex. The versions of the file are numbered by their renaming, and a table is the
number of the version it was parsed from; a version may have the modification time of the one before. A
`WriteToml` that fails renames nothing and is left out.

The entry of a save is erased when the save returns, but a `Load` that parsed the file before may store
its table afterwards. Every `Load` yields a table that is new enough unless that happens while the time
it was stored with is still the one that the file has, or that another `Load` has read and not looked up.
-/

namespace NextKey

/-- C++ `std::shared_ptr<const toml::table>`: the version it was parsed from, and `none` for a null
pointer. -/
abbrev ParsedTable := Option Nat

/-- The file at the path: its modification time and what parsing it gives. -/
structure TomlFile where
  mtime : Nat
  table : ParsedTable

/-- C++ `TomlFileCache::Entry` -/
structure CacheEntry where
  mtime : Nat
  table : ParsedTable

/-- Where a thread stands in `Load`; `since` is the newest version whose `WriteToml` had returned when
the `Load` began. -/
inductive LoadStage where
  | idle
  /-- The file was missing. -/
  | missing (since : Nat)
  | looking (since mtime : Nat)
  | parsing (since mtime : Nat)
  | storing (since mtime : Nat) (table : ParsedTable)

/-- Where a thread stands in `WriteToml`. -/
inductive SaveStage where
  | idle
  | renamed (version : Nat)

inductive CacheStep (τ ω : Type*) where
  /-- A `Load` begins with `last_write_time`. -/
  | stat (t : τ)
  /-- The cache is looked up, or its entry erased when the file was missing. -/
  | lookup (t : τ)
  | parse (t : τ)
  | store (t : τ)
  /-- `WriteToml` renames its file, whose modification time is so much later than the last one. -/
  | rename (w : ω) (later : Nat)
  /-- C++ `Invalidate`, with which `WriteToml` returns -/
  | invalidate (w : ω)

/-- The file, the cache, the threads, and what has been loaded. -/
structure TomlFileCache (τ ω : Type*) where
  file : Option TomlFile
  /-- How often the file has been renamed. -/
  versions : Nat := 0
  entry : Option CacheEntry := none
  loads : τ → LoadStage := fun _ => .idle
  saves : ω → SaveStage := fun _ => .idle
  /-- The newest version whose `WriteToml` has returned. -/
  finished : Nat := 0
  /-- What the finished calls of `Load` yielded, each with its `since`. -/
  yields : List (Nat × ParsedTable) := []

/-- The table is of this version or of a later one. -/
def Covers (since : Nat) : ParsedTable → Prop
  | some version => since ≤ version
  | none => since = 0

/-- A later time asks for less. -/
lemma Covers.mono {since since' : Nat} {table : ParsedTable} (h : Covers since' table)
    (hle : since ≤ since') : Covers since table := by
  cases table with
  | some version => exact Nat.le_trans hle h
  | none => exact Nat.eq_zero_of_le_zero (h ▸ hle)

/-- Every table covers the beginning. -/
lemma covers_zero {table : ParsedTable} : Covers 0 table := by
  cases table with
  | some version => exact Nat.zero_le version
  | none => rfl

namespace TomlFileCache

variable {τ ω : Type*} [DecidableEq τ] [DecidableEq ω]

/-- The call of `Load` in a thread returns. -/
def yield (s : TomlFileCache τ ω) (t : τ) (since : Nat) (table : ParsedTable) : TomlFileCache τ ω :=
  { s with
    loads := Function.update s.loads t .idle
    yields := (since, table) :: s.yields }

/-- A thread takes the next step of its call; a step that is not its next one does nothing. -/
def step (s : TomlFileCache τ ω) : CacheStep τ ω → TomlFileCache τ ω
  | .stat t =>
    match s.loads t, s.file with
    | .idle, some file =>
      { s with loads := Function.update s.loads t (.looking s.finished file.mtime) }
    | .idle, none => { s with loads := Function.update s.loads t (.missing s.finished) }
    | _, _ => s
  | .lookup t =>
    match s.loads t with
    | .missing since => { s with entry := none }.yield t since none
    | .looking since mtime =>
      match s.entry with
      | some entry =>
        if entry.mtime = mtime then s.yield t since entry.table
        else { s with loads := Function.update s.loads t (.parsing since mtime) }
      | none => { s with loads := Function.update s.loads t (.parsing since mtime) }
    | _ => s
  | .parse t =>
    match s.loads t with
    | .parsing since mtime =>
      { s with loads := Function.update s.loads t (.storing since mtime (s.file.bind (·.table))) }
    | _ => s
  | .store t =>
    match s.loads t with
    | .storing since mtime table => { s with entry := some { mtime, table } }.yield t since table
    | _ => s
  | .rename w later =>
    match s.saves w with
    | .idle =>
      let version := s.versions + 1
      { s with
        file := some { mtime := (s.file.map (·.mtime)).getD 0 + later, table := some version }
        versions := version
        saves := Function.update s.saves w (.renamed version) }
    | .renamed _ => s
  | .invalidate w =>
    match s.saves w with
    | .renamed version =>
      { s with
        entry := none
        saves := Function.update s.saves w .idle
        finished := max s.finished version }
    | .idle => s

/-- Every `Load` that has returned yielded a version at least as new as its `since`. -/
def Fresh (s : TomlFileCache τ ω) : Prop := ∀ load ∈ s.yields, Covers load.1 load.2

/-- A table may be stored with a modification time when no `Load` that reads this time now, or has read
it and not looked it up, needs a newer one. -/
def MayStore (s : TomlFileCache τ ω) (mtime : Nat) (table : ParsedTable) : Prop :=
  (∀ file, s.file = some file → file.mtime = mtime → Covers s.finished table) ∧
    ∀ t since, s.loads t = .looking since mtime → Covers since table

/-- No `Load` stores a table that is too old for the time it is stored with. -/
def StoresFresh (s : TomlFileCache τ ω) : CacheStep τ ω → Prop
  | .store t => ∀ since mtime table, s.loads t = .storing since mtime table → s.MayStore mtime table
  | _ => True

/-- What a `Load` under way will yield is new enough. -/
def LoadOk (s : TomlFileCache τ ω) : LoadStage → Prop
  | .idle => True
  | .missing since => since = 0
  | .looking since mtime =>
    since ≤ s.finished ∧ (∃ file, s.file = some file ∧ mtime ≤ file.mtime) ∧
      ∀ entry, s.entry = some entry → entry.mtime = mtime → Covers since entry.table
  | .parsing since mtime => since ≤ s.finished ∧ ∃ file, s.file = some file ∧ mtime ≤ file.mtime
  | .storing since mtime table =>
    Covers since table ∧ ∃ file, s.file = some file ∧ mtime ≤ file.mtime

/-- The invariant of the runs that store no table too late. -/
structure Inv (s : TomlFileCache τ ω) : Prop where
  finished : s.finished ≤ s.versions
  file : ∀ file, s.file = some file → Covers s.versions file.table
  missing : s.file = none → s.versions = 0
  saves : ∀ w version, s.saves w = .renamed version → version ≤ s.versions
  entry : ∀ entry, s.entry = some entry → ∃ file, s.file = some file ∧ entry.mtime ≤ file.mtime ∧
    (file.mtime = entry.mtime → Covers s.finished entry.table)
  loads : ∀ t, s.LoadOk (s.loads t)
  fresh : s.Fresh

variable {s s' : TomlFileCache τ ω}

omit [DecidableEq τ] [DecidableEq ω] in
/-- What the other threads do to a `Load` under way. -/
lemma LoadOk.mono {stage : LoadStage} (h : s.LoadOk stage) (hfinished : s.finished ≤ s'.finished)
    (hfile : ∀ file, s.file = some file → ∃ file', s'.file = some file' ∧ file.mtime ≤ file'.mtime)
    (hentry : ∀ entry, s'.entry = some entry → s.entry = some entry ∨
      ∀ since, stage = .looking since entry.mtime → Covers since entry.table) : s'.LoadOk stage := by
  have hlater {mtime : Nat} : (∃ file, s.file = some file ∧ mtime ≤ file.mtime) →
      ∃ file, s'.file = some file ∧ mtime ≤ file.mtime := by
    rintro ⟨file, hsome, hle⟩
    obtain ⟨file', hsome', hle'⟩ := hfile file hsome
    exact ⟨file', hsome', hle.trans hle'⟩
  cases stage with
  | idle => trivial
  | missing since => exact h
  | looking since mtime =>
    obtain ⟨hsince, hread, hhit⟩ := h
    refine ⟨hsince.trans hfinished, hlater hread, fun entry hsome hmtime => ?_⟩
    obtain hold | hnew := hentry entry hsome
    · exact hhit entry hold hmtime
    · exact hnew since (hmtime ▸ rfl)
  | parsing since mtime => exact ⟨h.1.trans hfinished, hlater h.2⟩
  | storing since mtime table => exact ⟨h.1, hlater h.2⟩

omit [DecidableEq ω] in
/-- A step of one `Load` that leaves the file and the cache alone. -/
lemma Inv.setLoad (h : s.Inv) (t : τ) (stage : LoadStage) (ok : s.LoadOk stage) :
    { s with loads := Function.update s.loads t stage }.Inv where
  finished := h.finished
  file := h.file
  missing := h.missing
  saves := h.saves
  entry := h.entry
  loads t' := by
    refine LoadOk.mono (s := s) ?_ le_rfl (fun file hfile => ⟨file, hfile, le_rfl⟩)
      fun entry hentry => .inl hentry
    dsimp only
    rw [Function.update_apply]
    split
    · exact ok
    · exact h.loads t'
  fresh := h.fresh

omit [DecidableEq ω] in
/-- A load returns. -/
lemma Inv.yield (h : s.Inv) (t : τ) {since : Nat} {table : ParsedTable} (covers : Covers since table) :
    (s.yield t since table).Inv := by
  have hidle := h.setLoad t .idle trivial
  exact { hidle with fresh := List.forall_mem_cons.2 ⟨covers, h.fresh⟩ }

/-- The time of the file is read. -/
lemma Inv.stat (h : s.Inv) (t : τ) : (s.step (.stat t)).Inv := by
  unfold step
  dsimp only
  split
  · next file _ hfile =>
    refine h.setLoad t (.looking s.finished file.mtime)
      ⟨le_rfl, ⟨file, hfile, le_rfl⟩, fun entry hentry hmtime => ?_⟩
    obtain ⟨file', hfile', -, hcovers⟩ := h.entry entry hentry
    obtain rfl := Option.some.inj (hfile.symm.trans hfile')
    exact hcovers hmtime.symm
  · next hfile =>
    refine h.setLoad t (.missing s.finished) (Nat.eq_zero_of_le_zero ?_)
    exact h.missing hfile ▸ h.finished
  · exact h

omit [DecidableEq τ] [DecidableEq ω] in
/-- Erasing the entry makes no `Load` yield anything older. -/
lemma Inv.erase (h : s.Inv) : { s with entry := none }.Inv where
  finished := h.finished
  file := h.file
  missing := h.missing
  saves := h.saves
  entry := nofun
  loads t := (h.loads t).mono le_rfl (fun file hfile => ⟨file, hfile, le_rfl⟩) nofun
  fresh := h.fresh

/-- The entry is looked up. -/
lemma Inv.lookup (h : s.Inv) (t : τ) : (s.step (.lookup t)).Inv := by
  have hload := h.loads t
  unfold step
  dsimp only
  split
  · next since hstage =>
    rw [hstage] at hload
    exact h.erase.yield t hload
  · next since mtime hstage =>
    rw [hstage] at hload
    obtain ⟨hsince, hread, hhit⟩ := hload
    split
    · next entry hentry =>
      split
      · next hmtime => exact h.yield t (hhit entry hentry hmtime)
      · exact h.setLoad t (.parsing since mtime) ⟨hsince, hread⟩
    · exact h.setLoad t (.parsing since mtime) ⟨hsince, hread⟩
  · exact h

/-- The file is parsed. -/
lemma Inv.parse (h : s.Inv) (t : τ) : (s.step (.parse t)).Inv := by
  have hload := h.loads t
  unfold step
  dsimp only
  split
  · next since mtime hstage =>
    rw [hstage] at hload
    obtain ⟨hsince, file, hfile, hle⟩ := hload
    refine h.setLoad t (.storing since mtime _) ⟨?_, file, hfile, hle⟩
    rw [hfile]
    exact (h.file file hfile).mono (hsince.trans h.finished)
  · exact h

/-- The table is stored. -/
lemma Inv.store (h : s.Inv) (t : τ) (ok : s.StoresFresh (.store t)) : (s.step (.store t)).Inv := by
  have hload := h.loads t
  unfold step
  dsimp only
  split
  · next since mtime table hstage =>
    rw [hstage] at hload
    obtain ⟨hcovers, file, hfile, hle⟩ := hload
    obtain ⟨hcurrent, hlooking⟩ := ok since mtime table hstage
    have hstored : { s with entry := some { mtime, table } }.Inv :=
      { finished := h.finished
        file := h.file
        missing := h.missing
        saves := h.saves
        entry := fun entry hentry => by
          cases hentry
          exact ⟨file, hfile, hle, hcurrent file hfile⟩
        loads := fun t' => by
          refine (h.loads t').mono le_rfl (fun file hfile => ⟨file, hfile, le_rfl⟩) ?_
          intro entry hentry
          cases hentry
          exact .inr (hlooking t')
        fresh := h.fresh }
    exact hstored.yield t hcovers
  · exact h

/-- A save replaces the file. -/
lemma Inv.rename (h : s.Inv) (w : ω) (later : Nat) : (s.step (.rename w later)).Inv := by
  unfold step
  dsimp only
  split
  · have hlater : ∀ file, s.file = some file →
        file.mtime ≤ (s.file.map (·.mtime)).getD 0 + later := by
      intro file hfile
      rw [hfile]
      exact Nat.le_add_right ..
    refine
      { finished := h.finished.trans (Nat.le_succ _)
        file := ?_
        missing := nofun
        saves := ?_
        entry := ?_
        loads := fun t => (h.loads t).mono le_rfl (fun file hfile => ⟨_, rfl, hlater file hfile⟩)
          fun entry hentry => .inl hentry
        fresh := h.fresh }
    · rintro file ⟨⟩
      exact le_refl _
    · intro w' version hversion
      dsimp only at hversion
      rw [Function.update_apply] at hversion
      split at hversion
      · cases hversion
        exact le_rfl
      · exact (h.saves w' version hversion).trans (Nat.le_succ _)
    · -- the old entry still has the time of the file only if that did not go on
      intro entry hentry
      obtain ⟨file, hfile, hle, hcovers⟩ := h.entry entry hentry
      refine ⟨_, rfl, hle.trans (hlater file hfile), fun hmtime => hcovers ?_⟩
      exact le_antisymm ((hlater file hfile).trans hmtime.le) hle
  · exact h

/-- A save drops the entry. -/
lemma Inv.invalidate (h : s.Inv) (w : ω) : (s.step (.invalidate w)).Inv := by
  unfold step
  dsimp only
  split
  · next version hversion =>
    refine
      { finished := max_le h.finished (h.saves w version hversion)
        file := h.file
        missing := h.missing
        saves := ?_
        entry := nofun
        loads := fun t => (h.loads t).mono (le_max_left _ _) (fun file hfile => ⟨file, hfile, le_rfl⟩)
          nofun
        fresh := h.fresh }
    intro w' version' hversion'
    dsimp only at hversion'
    rw [Function.update_apply] at hversion'
    split at hversion'
    · cases hversion'
    · exact h.saves w' version' hversion'
  · exact h

/-- What every step preserves. -/
lemma Inv.step (h : s.Inv) {e : CacheStep τ ω} (ok : s.StoresFresh e) : (s.step e).Inv := by
  cases e with
  | stat t => exact h.stat t
  | lookup t => exact h.lookup t
  | parse t => exact h.parse t
  | store t => exact h.store t ok
  | rename w later => exact h.rename w later
  | invalidate w => exact h.invalidate w

/-- A process that has loaded nothing yet. -/
def start (file : Option TomlFile) : TomlFileCache τ ω := { file }

omit [DecidableEq τ] [DecidableEq ω] in
/-- Before the first step. -/
lemma start_inv (file : Option TomlFile) : (start file : TomlFileCache τ ω).Inv where
  finished := le_rfl
  file := fun _ _ => covers_zero
  missing := fun _ => rfl
  saves := nofun
  entry := nofun
  loads := fun _ => trivial
  fresh := nofun

/-- The step that stores. -/
lemma step_store {t : τ} {since mtime : Nat} {table : ParsedTable}
    (h : s.loads t = .storing since mtime table) :
    s.step (.store t) = { s with entry := some { mtime, table } }.yield t since table := by
  simp only [step, h]

/-- The step that finds its entry. -/
lemma step_lookup_hit {t : τ} {since : Nat} {entry : CacheEntry}
    (h : s.loads t = .looking since entry.mtime) (hentry : s.entry = some entry) :
    s.step (.lookup t) = s.yield t since entry.table := by
  simp only [step, h, hentry, if_true]

/-- A `Load` that begins while the entry has the time of the file yields the entry. -/
lemma yields_of_stat {t : τ} {file : TomlFile} {entry : CacheEntry} (hidle : s.loads t = .idle)
    (hfile : s.file = some file) (hentry : s.entry = some entry) (hmtime : entry.mtime = file.mtime) :
    (s.finished, entry.table) ∈ (Machine.run step s [.stat t, .lookup t]).yields := by
  obtain ⟨s', hstat, hlooking, hentry'⟩ : ∃ s', s.step (.stat t) = s' ∧
      s'.loads t = .looking s.finished entry.mtime ∧ s'.entry = some entry := by
    simp only [step, hidle, hfile, hmtime]
    exact ⟨_, rfl, Function.update_self .., hentry⟩
  rw [Machine.run_cons, hstat, Machine.run_cons, Machine.run_nil, step_lookup_hit hlooking hentry']
  exact List.mem_cons_self

/-- So does one that has read this time before. -/
lemma yields_of_looking {t : τ} {since : Nat} {entry : CacheEntry}
    (hlooking : s.loads t = .looking since entry.mtime) (hentry : s.entry = some entry) :
    (since, entry.table) ∈ (Machine.run step s [.stat t, .lookup t]).yields := by
  have hstat : s.step (.stat t) = s := by simp only [step, hlooking]
  rw [Machine.run_cons, hstat, Machine.run_cons, Machine.run_nil, step_lookup_hit hlooking hentry]
  exact List.mem_cons_self

/-- A table that is stored too late is what some `Load` yields next. -/
lemma not_fresh_of_store {t : τ} (late : ¬s.StoresFresh (.store t)) :
    ∃ t', ¬(Machine.run step s [.store t, .stat t', .lookup t']).Fresh := by
  simp only [StoresFresh, not_forall] at late
  obtain ⟨since, mtime, table, hstage, hmay⟩ := late
  rw [MayStore, not_and_or] at hmay
  simp only [not_forall] at hmay
  obtain ⟨file, hfile, hmtime, hold⟩ | ⟨t', since', hlooking, hold⟩ := hmay
  · -- the next `Load` of the same thread reads this time
    refine ⟨t, fun hfresh => hold (hfresh (s.finished, table) ?_)⟩
    rw [Machine.run_cons, step_store hstage]
    exact @yields_of_stat _ _ _ _ _ t file ⟨mtime, table⟩ (Function.update_self ..) hfile rfl
      hmtime.symm
  · -- another `Load` has read it
    have hne : t' ≠ t := by
      rintro rfl
      exact absurd (hstage.symm.trans hlooking) nofun
    refine ⟨t', fun hfresh => hold (hfresh (since', table) ?_)⟩
    rw [Machine.run_cons, step_store hstage]
    exact @yields_of_looking _ _ _ _ _ t' since' ⟨mtime, table⟩
      ((Function.update_of_ne hne ..).trans hlooking) rfl

/-- In a run in which no `Load` stores a table too late every `Load` yields a version at least as new as
the last one saved before it began; a run in which one does goes on to a `Load` that does not. -/
theorem fresh_run (file : Option TomlFile) (steps : List (CacheStep τ ω)) :
    (Machine.Guarded step StoresFresh (start file) steps →
      ∀ js, js <+: steps → (Machine.run step (start file) js).Fresh) ∧
    (¬Machine.Guarded step StoresFresh (start file) steps →
      ∃ js t, js <+: steps ∧
        ¬(Machine.run step (start file) (js ++ [.stat t, .lookup t])).Fresh) := by
  constructor
  · rintro ok js ⟨ks, rfl⟩
    exact (ok.left.invariant (start_inv file) fun h he => h.step he).fresh
  · intro hnot
    obtain ⟨js, e, hjs, -, hlate⟩ := Machine.exists_of_not_guarded hnot
    cases e with
    | store t =>
      obtain ⟨t', hstale⟩ := not_fresh_of_store hlate
      refine ⟨js ++ [.store t], t', hjs, ?_⟩
      rw [List.append_assoc, Machine.run_append]
      exact hstale
    | _ => exact absurd trivial hlate

/-- A `Load` parses the file, a save with the same modification time returns, the table is stored, and
the next `Load` yields it. -/
theorem not_fresh_slow_parse :
    ¬(Machine.run (@step Bool Unit _ _) (start (some { mtime := 0, table := some 0 }))
      [.stat false, .lookup false, .parse false, .rename () 0, .invalidate (), .store false,
        .stat true, .lookup true]).Fresh := by
  intro h
  exact absurd (h (1, some 0) (by simp [step, yield, start])) (by simp [Covers])

end TomlFileCache

end NextKey
