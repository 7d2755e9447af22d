import NextKey.Ipc.ConfigReload
import NextKey.Ipc.ReloadStages

/-!
# The invariant of savers and engine

What holds in every state while each `Write` loads an even epoch (`ConfigReload.ReloadInv`). Whoever
reads a generation has its TOML written before, so a reload that both generations cause has both
saves. What the engine has last seen is behind only while a saver will store another generation
(`ConfigReload.Behind`).
-/

namespace NextKey

/-- A field stored from one record into another. -/
lemma update_cases {src dst : SharedState} {f k : SharedField} :
    Function.update dst f (src f) k = src k ∨ Function.update dst f (src f) k = dst k := by
  by_cases hk : k = f
  · subst hk
    exact .inl (Function.update_self ..)
  · exact .inr (Function.update_of_ne hk ..)

/-- A field of a valid state is stored in a valid memory. -/
lemma SharedState.IsValid.store {mem st : SharedState} {f : SharedField} (hmem : mem.IsValid)
    (hst : st.IsValid) : IsValid (Function.update mem f (st f)) := by
  have hmagic := @update_cases st mem f .magic
  have hversion := @update_cases st mem f .structVersion
  have hsize := @update_cases st mem f .structSize
  refine ⟨?_, ?_, ?_⟩
  · obtain h | h := hmagic
    · exact h.trans hst.1
    · exact h.trans hmem.1
  · obtain h | h := hversion
    · rw [h]
      exact hst.2.1
    · rw [h]
      exact hmem.2.1
  · obtain h | h := hsize
    · rw [h]
      exact hst.2.2
    · rw [h]
      exact hmem.2.2

/-- The epoch does not matter. -/
lemma SharedState.IsValid.storeEpoch {mem : SharedState} {v : BitVec 32} (hmem : mem.IsValid) :
    IsValid (Function.update mem .epoch v) := hmem

/-- A change of the settings keeps the state valid. -/
lemma edit_isValid {change : ConfigChange} {st : SharedState} (h : st.IsValid) :
    (change.edit st).IsValid := by
  cases change with
  | SignalConfigChange => exact h
  | ApplyConfigChange config => exact h

/-- A change of the settings counts the generation up. -/
lemma edit_generation {change : ConfigChange} {st : SharedState} :
    change.edit st .configGeneration = st .configGeneration + 1 := by
  cases change with
  | SignalConfigChange => rw [ConfigChange.edit, SharedState.bumpGeneration, Function.update_self]
  | ApplyConfigChange config =>
    rw [ConfigChange.edit, SharedState.bumpGeneration, Function.update_self]
    rfl

/-- Every field is written once. -/
lemma writeOrder_nodup : writeOrder.Nodup := by
  rw [writeOrder, List.nodup_append]
  refine ⟨by decide, ?_, ?_⟩
  · apply List.Nodup.map
    · intro k k' h
      cases h
      rfl
    · exact List.nodup_finRange _
  · intro f hf f' hf'
    obtain ⟨k, -, rfl⟩ := List.mem_map.1 hf'
    rintro rfl
    simp at hf

/-- What holds of the fields copied holds after one more. -/
lemma copied {mem state : SharedState} {f k : SharedField} {rest : List SharedField}
    {Q : BitVec k.width → Prop} (h : k ∉ f :: rest → Q (state k)) (hmem : Q (mem k)) :
    k ∉ rest → Q (Function.update state f (mem f) k) := by
  intro hk
  obtain h' | h' := @update_cases mem state f k
  · rw [h']
    exact hmem
  · by_cases hkf : k = f
    · subst hkf
      rw [Function.update_self]
      exact hmem
    · rw [h']
      exact h (by simp [hkf, hk])

/-- The fields copied are those of a valid state. -/
structure CopiedValid (state : SharedState) (rest : List SharedField) : Prop where
  magic : .magic ∉ rest → state .magic = SharedState.MAGIC_VALUE
  structVersion : .structVersion ∉ rest → state .structVersion ≤ SharedState.CURRENT_VERSION
  structSize : .structSize ∉ rest → 24#32 ≤ state .structSize

/-- Nothing is copied yet. -/
lemma CopiedValid.start {state : SharedState} : CopiedValid state readOrder :=
  ⟨fun h => absurd (mem_readOrder _) h, fun h => absurd (mem_readOrder _) h,
    fun h => absurd (mem_readOrder _) h⟩

/-- The next field is copied from a valid memory. -/
lemma CopiedValid.copy {mem state : SharedState} {f : SharedField} {rest : List SharedField}
    (h : CopiedValid state (f :: rest)) (hmem : mem.IsValid) :
    CopiedValid (Function.update state f (mem f)) rest where
  magic := @copied mem state f .magic rest (· = SharedState.MAGIC_VALUE) h.magic hmem.1
  structVersion :=
    @copied mem state f .structVersion rest (· ≤ SharedState.CURRENT_VERSION) h.structVersion
      hmem.2.1
  structSize := @copied mem state f .structSize rest (24#32 ≤ ·) h.structSize hmem.2.2

/-- When all is copied, the copy is valid. -/
lemma CopiedValid.isValid {state : SharedState} (h : CopiedValid state []) : state.IsValid :=
  ⟨h.magic List.not_mem_nil, h.structVersion List.not_mem_nil, h.structSize List.not_mem_nil⟩

namespace ConfigReload

/-- How far a saver is with its write. -/
def progress (s : ConfigReload) (b : Bool) : Progress :=
  match s.saver b with
  | .writing state =>
    match s.shared.call (.saver b) with
    | .writeLoad _ => .begun (state .configGeneration)
    | .writeMark _ seq => .marking (state .configGeneration) seq
    | .writeCopy _ seq rest => .copying (state .configGeneration) seq (.configGeneration ∉ rest)
    | _ => .finished (state .configGeneration)
  | _ => .before

/-- Where a saver can stand in its `Write`. -/
def WritesState (state : SharedState) : Call → Prop
  | .writeLoad st | .writeMark st _ => st = state
  | .writeCopy st _ rest => st = state ∧ rest <:+ writeOrder
  | .idle => True
  | _ => False

/-- Where a saver can stand in its `Read`, with the other saver's progress. -/
def SaverReads (e : BitVec 32) (g : BitVec 8) (other : Progress) (result : SharedState) : Call → Prop
  | .readMagic | .readEpoch _ _ => True
  | .readCopy _ before state rest =>
    CopiedValid state rest ∧ (other.marked = false → before = e) ∧
      (.configGeneration ∉ rest →
        state .configGeneration = g ∨ state .configGeneration = g + 1 ∧ other.stored)
  | .idle =>
    (result.IsValid → result .configGeneration = g ∨ result .configGeneration = g + 1 ∧ other.stored) ∧
      (¬result.IsValid → other.marked)
  | _ => False

/-- What holds of a saver. -/
def SaverInv (e : BitVec 32) (g : BitVec 8) (s : ConfigReload) (b : Bool) : Prop :=
  match s.saver b with
  | .saving | .saved => s.shared.call (.saver b) = .idle
  | .reading => SaverReads e g (s.progress !b) (s.shared.result (.saver b)) (s.shared.call (.saver b))
  | .writing state => state.IsValid ∧ WritesState state (s.shared.call (.saver b))
  | .skipped => s.shared.call (.saver b) = .idle ∧ (s.progress !b).marked

/-- Where a saver can stand in its `Read` when the other is finished before it. -/
def BehindReads (e : BitVec 32) (g : BitVec 8) (result : SharedState) : Call → Prop
  | .readMagic | .readEpoch _ _ => True
  | .readCopy _ before state rest =>
    before = e + 1 + 1 ∧ CopiedValid state rest ∧
      (.configGeneration ∉ rest → state .configGeneration = g + 1)
  | .idle => result.IsValid ∧ result .configGeneration = g + 1
  | _ => False

/-- A saver will store the generation after that of the other, which is finished. -/
def Behind (e : BitVec 32) (g : BitVec 8) (s : ConfigReload) (b : Bool) : Prop :=
  match s.saver b with
  | .saving | .saved => True
  | .reading => BehindReads e g (s.shared.result (.saver b)) (s.shared.call (.saver b))
  | .writing state => state .configGeneration = g + 1 + 1
  | .skipped => False

/-- One saver is finished and the other behind. -/
def OneBehind (e : BitVec 32) (g : BitVec 8) (s : ConfigReload) : Prop :=
  ∃ a, (s.progress a).isFinished ∧ s.Behind e g !a

/-- Both savers are in a list. -/
def Both (l : List Bool) : Prop := ∀ b, b ∈ l

/-- A generation that the savers will not leave. -/
def StaleGen (e : BitVec 32) (g : BitVec 8) (s : ConfigReload) (x : BitVec 8) : Prop :=
  x ≠ g + 1 ∧ x ≠ g + 1 + 1 ∨ x = g + 1 ∧ s.OneBehind e g

/-- An epoch that the savers will not leave. -/
def StaleEpoch (e : BitVec 32) (g : BitVec 8) (s : ConfigReload) (y : BitVec 32) : Prop :=
  y ≠ e + 1 + 1 ∧ y ≠ e + 1 + 1 + 1 + 1 ∨ y = e + 1 + 1 ∧ s.OneBehind e g

/-- A state that a `Read` of the engine can return. -/
def Seen (e : BitVec 32) (g : BitVec 8) (s : ConfigReload) (state : SharedState) : Prop :=
  state .configGeneration = g ∧ state .epoch = e ∨
    state .configGeneration = g + 1 ∧ state .epoch = e + 1 + 1 ∧ (Both s.toml ∨ s.OneBehind e g) ∨
    Settled g s.progress (state .configGeneration)

/-- What a `Read` of the engine has copied, by the epoch it loaded first. -/
structure Collects (e : BitVec 32) (g : BitVec 8) (P : Bool → Progress) (before : BitVec 32)
    (state : SharedState) (rest : List SharedField) : Prop where
  first : before = e → (∃ b, (P b).marked) ∨
    (.configGeneration ∉ rest → state .configGeneration = g) ∧ (.epoch ∉ rest → state .epoch = e)
  second : before = e + 1 + 1 → (∃ a, (P a).isFinished) ∧
    (.configGeneration ∉ rest → state .configGeneration = g + 1 ∨ Ahead g P) ∧
    (.epoch ∉ rest → state .epoch = e + 1 + 1 ∨ SameGens g P ∨ Ahead g P)
  last : before = e + 1 + 1 + 1 + 1 → (∀ b, (P b).isFinished) ∧
    (.configGeneration ∉ rest → Settled g P (state .configGeneration))

/-- Where the engine can stand in its `Read`. -/
def EngineReads (e : BitVec 32) (g : BitVec 8) (s : ConfigReload) : Prop :=
  match s.shared.call .engine with
  | .readMagic | .readEpoch _ _ => True
  | .readCopy _ before state rest => Collects e g s.progress before state rest
  | .idle => (s.shared.result .engine).IsValid → s.Seen e g (s.shared.result .engine)
  | _ => False

/-- The config in force has both saves, or the engine has last seen what will not last. -/
def Current (e : BitVec 32) (g : BitVec 8) (s : ConfigReload) : Prop :=
  Both s.config ∨ s.StaleGen e g s.lastConfigGeneration ∧ s.StaleEpoch e g s.lastEpoch

/-- What holds of the engine. -/
def EngineInv (e : BitVec 32) (g : BitVec 8) (s : ConfigReload) : Prop :=
  match s.tick with
  | .idle => s.shared.call .engine = .idle ∧ s.Current e g
  | .fastEpoch | .slowEpoch =>
    (s.shared.call .engine = .epochMagic ∨ s.shared.call .engine = .epochLoad ∨
      s.shared.call .engine = .idle) ∧ s.Current e g
  | .reading _ | .draining => s.EngineReads e g ∧ s.Current e g
  | .claim _ state => s.shared.call .engine = .idle ∧ s.Seen e g state ∧ s.Current e g
  | .checking state =>
    s.shared.call .engine = .idle ∧ s.Seen e g state ∧ s.lastEpoch = state .epoch ∧
      (Both s.config ∨ s.StaleGen e g s.lastConfigGeneration)
  | .reloading =>
    s.shared.call .engine = .idle ∧
      (Both s.toml ∨ s.StaleGen e g s.lastConfigGeneration ∧ s.StaleEpoch e g s.lastEpoch)

/-- What holds in every state while each `Write` loads an even epoch. -/
structure ReloadInv (e : BitVec 32) (g : BitVec 8) (s : ConfigReload) : Prop where
  mem : s.shared.mem.IsValid
  saver : ∀ b, s.SaverInv e g b
  stage : Stage e g (s.shared.mem .epoch) (s.shared.mem .configGeneration) s.progress
  gens : Gens g s.progress
  toml : ∀ b, b ∈ s.toml ∨ s.saver b = .saving
  config : ∀ b ∈ s.config, b ∈ s.toml
  engine : s.EngineInv e g

/-- The savers go on and the engine stays. -/
structure Onward (e : BitVec 32) (g : BitVec 8) (s s' : ConfigReload) : Prop where
  progress : ∀ b, Progress.Grows (s.progress b) (s'.progress b)
  toml : ∀ b ∈ s.toml, b ∈ s'.toml
  behind : s.OneBehind e g → s'.OneBehind e g

section
variable {e : BitVec 32} {g : BitVec 8} {s s' : ConfigReload}

/-- More of the two is still both. -/
lemma Both.mono {l l' : List Bool} (h : Both l) (hl : ∀ b ∈ l, b ∈ l') : Both l' :=
  fun b => hl b (h b)

/-- A stale generation stays stale. -/
lemma StaleGen.mono {x : BitVec 8} (h : s.StaleGen e g x) (hon : Onward e g s s') :
    s'.StaleGen e g x := by
  obtain h | ⟨hx, hbehind⟩ := h
  · exact .inl h
  · exact .inr ⟨hx, hon.behind hbehind⟩

/-- A stale epoch stays stale. -/
lemma StaleEpoch.mono {y : BitVec 32} (h : s.StaleEpoch e g y) (hon : Onward e g s s') :
    s'.StaleEpoch e g y := by
  obtain h | ⟨hy, hbehind⟩ := h
  · exact .inl h
  · exact .inr ⟨hy, hon.behind hbehind⟩

/-- What was seen stays explained. -/
lemma Seen.mono {state : SharedState} (h : s.Seen e g state) (hon : Onward e g s s') :
    s'.Seen e g state := by
  obtain h | ⟨hgen, hepoch, hboth | hbehind⟩ | hsettled := h
  · exact .inl h
  · exact .inr (.inl ⟨hgen, hepoch, .inl (hboth.mono hon.toml)⟩)
  · exact .inr (.inl ⟨hgen, hepoch, .inr (hon.behind hbehind)⟩)
  · exact .inr (.inr (hsettled.mono hon.progress))

/-- What a reader has collected stays explained as the savers go on. -/
lemma Collects.mono {P P' : Bool → Progress} {before : BitVec 32} {state : SharedState}
    {rest : List SharedField} (h : Collects e g P before state rest)
    (hgrows : ∀ b, Progress.Grows (P b) (P' b)) : Collects e g P' before state rest where
  first hbefore := by
    obtain ⟨b, hb⟩ | hcopied := h.first hbefore
    · exact .inl ⟨b, (hgrows b).marked hb⟩
    · exact .inr hcopied
  second hbefore := by
    obtain ⟨⟨a, ha⟩, hgen, hepoch⟩ := h.second hbefore
    refine ⟨⟨a, (hgrows a).finished ha⟩, fun hf => ?_, fun hf => ?_⟩
    · obtain hgen | hahead := hgen hf
      · exact .inl hgen
      · exact .inr (hahead.mono hgrows)
    · obtain hepoch | hsame | hahead := hepoch hf
      · exact .inl hepoch
      · exact .inr (.inl (hsame.mono hgrows))
      · exact .inr (.inr (hahead.mono hgrows))
  last hbefore := by
    obtain ⟨hall, hsettled⟩ := h.last hbefore
    exact ⟨fun b => (hgrows b).finished (hall b), fun hf => (hsettled hf).mono hgrows⟩

/-- The engine stays current. -/
lemma Current.mono (h : s.Current e g) (hon : Onward e g s s') (hconfig : s'.config = s.config)
    (hgen : s'.lastConfigGeneration = s.lastConfigGeneration) (hepoch : s'.lastEpoch = s.lastEpoch) :
    s'.Current e g := by
  simp only [Current, hconfig, hgen, hepoch]
  obtain hboth | ⟨hx, hy⟩ := h
  · exact .inl hboth
  · exact .inr ⟨hx.mono hon, hy.mono hon⟩

/-- A reading of the engine stays explained. -/
lemma EngineReads.mono (h : s.EngineReads e g) (hon : Onward e g s s')
    (hcall : s'.shared.call .engine = s.shared.call .engine)
    (hresult : s'.shared.result .engine = s.shared.result .engine) : s'.EngineReads e g := by
  simp only [EngineReads, hcall, hresult] at h ⊢
  cases hc : s.shared.call .engine with
  | readMagic | readEpoch => exact trivial
  | readCopy =>
    rw [hc] at h
    exact Collects.mono h hon.progress
  | idle =>
    rw [hc] at h
    exact fun hvalid => (h hvalid).mono hon
  | _ =>
    rw [hc] at h
    cases h

/-- What holds of the engine goes on to hold when the savers go on. -/
lemma EngineInv.mono (h : s.EngineInv e g) (hon : Onward e g s s') (htick : s'.tick = s.tick)
    (hcall : s'.shared.call .engine = s.shared.call .engine)
    (hresult : s'.shared.result .engine = s.shared.result .engine) (hconfig : s'.config = s.config)
    (hgen : s'.lastConfigGeneration = s.lastConfigGeneration) (hepoch : s'.lastEpoch = s.lastEpoch) :
    s'.EngineInv e g := by
  simp only [EngineInv, htick, hcall] at h ⊢
  have hcurrent : s.Current e g → s'.Current e g := fun h => h.mono hon hconfig hgen hepoch
  cases ht : s.tick with
  | idle | fastEpoch | slowEpoch =>
    rw [ht] at h
    exact ⟨h.1, hcurrent h.2⟩
  | reading | draining =>
    rw [ht] at h
    exact ⟨EngineReads.mono h.1 hon hcall hresult, hcurrent h.2⟩
  | claim =>
    rw [ht] at h
    exact ⟨h.1, h.2.1.mono hon, hcurrent h.2.2⟩
  | checking =>
    rw [ht] at h
    obtain ⟨hidle, hseen, hlast, hstale⟩ := h
    refine ⟨hidle, hseen.mono hon, hepoch.trans hlast, ?_⟩
    rw [hconfig, hgen]
    obtain hboth | hx := hstale
    · exact .inl hboth
    · exact .inr (hx.mono hon)
  | reloading =>
    rw [ht] at h
    obtain ⟨hidle, hstale⟩ := h
    refine ⟨hidle, ?_⟩
    rw [hgen, hepoch]
    obtain hboth | ⟨hx, hy⟩ := hstale
    · exact .inl (hboth.mono hon.toml)
    · exact .inr ⟨hx.mono hon, hy.mono hon⟩

/-- The engine moves on and the savers stay. -/
structure SameSavers (s s' : ConfigReload) : Prop where
  mem : s'.shared.mem = s.shared.mem
  saver : s'.saver = s.saver
  call : ∀ b, s'.shared.call (.saver b) = s.shared.call (.saver b)
  result : ∀ b, s'.shared.result (.saver b) = s.shared.result (.saver b)
  toml : s'.toml = s.toml

/-- The savers are where they were. -/
lemma SameSavers.progress (h : SameSavers s s') : s'.progress = s.progress := by
  funext b
  simp only [ConfigReload.progress, h.saver, h.call]

/-- As many savers are behind as before. -/
lemma SameSavers.oneBehind (h : SameSavers s s') : s'.OneBehind e g ↔ s.OneBehind e g := by
  simp only [OneBehind, Behind, h.progress, h.saver, h.call, h.result]

/-- Nothing goes back. -/
lemma SameSavers.onward (h : SameSavers s s') : Onward e g s s' where
  progress b := by
    rw [h.progress]
    exact Progress.Grows.refl
  toml b hb := by rwa [h.toml]
  behind := h.oneBehind.2

/-- The savers stand, and the engine keeps its part of the invariant. -/
lemma SameSavers.reloadInv (h : SameSavers s s') (hinv : ReloadInv e g s)
    (hconfig : ∀ b ∈ s'.config, b ∈ s.toml) (hengine : s'.EngineInv e g) : ReloadInv e g s' where
  mem := by
    rw [h.mem]
    exact hinv.mem
  saver b := by
    have hb := hinv.saver b
    simp only [SaverInv, h.progress, h.saver, h.call, h.result] at hb ⊢
    exact hb
  stage := by
    rw [h.mem, h.progress]
    exact hinv.stage
  gens := by
    rw [h.progress]
    exact hinv.gens
  toml b := by
    rw [h.toml, h.saver]
    exact hinv.toml b
  config b hb := by
    rw [h.toml]
    exact hconfig b hb
  engine := hengine

/-- A call of the engine stores nothing. -/
lemma sameSavers_of_quiet {ev : SharedEvent ConfigProcess} (hprocess : ev.process = .engine)
    (hcall : (s.shared.call .engine).isQuiet) (hquiet : ev.isQuiet)
    (hshared : s'.shared = s.shared.step ev) (hsaver : s'.saver = s.saver) (htoml : s'.toml = s.toml) :
    SameSavers s s' := by
  obtain ⟨hmem, c, state, -, hc, hr⟩ := step_of_quiet (by rwa [hprocess]) hquiet
  rw [hprocess] at hc hr
  refine ⟨?_, hsaver, fun b => ?_, fun b => ?_, htoml⟩
  · rw [hshared, hmem]
  · have hne : ConfigProcess.saver b ≠ .engine := nofun
    rw [hshared, hc, Function.update_of_ne hne]
  · have hne : ConfigProcess.saver b ≠ .engine := nofun
    rw [hshared, hr, Function.update_of_ne hne]

/-- A reader begins in a stage of the savers. -/
lemma Collects.start {P : Bool → Progress} {epoch : BitVec 32} {gen : BitVec 8} {state : SharedState}
    (hstage : Stage e g epoch gen P) : Collects e g P epoch state readOrder where
  first _ := .inr ⟨fun h => absurd (mem_readOrder _) h, fun h => absurd (mem_readOrder _) h⟩
  second h := by
    subst h
    exact ⟨hstage.exists_finished, fun h => absurd (mem_readOrder _) h,
      fun h => absurd (mem_readOrder _) h⟩
  last h := by
    subst h
    exact ⟨hstage.all_finished, fun h => absurd (mem_readOrder _) h⟩

/-- The engine copies a field. -/
lemma Collects.copy {P : Bool → Progress} {before : BitVec 32} {mem state : SharedState}
    {f : SharedField} {rest : List SharedField} (h : Collects e g P before state (f :: rest))
    (hstage : Stage e g (mem .epoch) (mem .configGeneration) P) (hgens : Gens g P) :
    Collects e g P before (Function.update state f (mem f)) rest where
  first hbefore := by
    obtain hmarked | ⟨hgen, hepoch⟩ := h.first hbefore
    · exact .inl hmarked
    · cases hany : (P true).marked || (P false).marked with
      | true =>
        obtain hb | hb := Bool.or_eq_true_iff.1 hany
        · exact .inl ⟨_, hb⟩
        · exact .inl ⟨_, hb⟩
      | false =>
        obtain ⟨htrue, hfalse⟩ := Bool.or_eq_false_iff.1 hany
        obtain ⟨hmem, hmem'⟩ := hstage.unmarked fun b => by cases b <;> assumption
        exact .inr ⟨@copied mem state f .configGeneration rest (· = g) hgen hmem',
          @copied mem state f .epoch rest (· = e) hepoch hmem⟩
  second hbefore := by
    obtain ⟨⟨a, ha⟩, hgen, hepoch⟩ := h.second hbefore
    obtain ⟨hmem, hmem'⟩ := hstage.of_finished hgens ha
    exact ⟨⟨a, ha⟩,
      @copied mem state f .configGeneration rest (fun x => x = g + 1 ∨ Ahead g P) hgen hmem,
      @copied mem state f .epoch rest (fun y => y = e + 1 + 1 ∨ SameGens g P ∨ Ahead g P) hepoch
        hmem'⟩
  last hbefore := by
    obtain ⟨hall, hgen⟩ := h.last hbefore
    exact ⟨hall, @copied mem state f .configGeneration rest (Settled g P) hgen
      (hstage.settled hgens hall)⟩

/-- A saver that has begun its write has written its TOML. -/
lemma ReloadInv.mem_toml {b : Bool} (hinv : ReloadInv e g s) (hb : s.progress b ≠ .before) :
    b ∈ s.toml := by
  obtain hmem | hsaving := hinv.toml b
  · exact hmem
  · rw [progress, hsaving] at hb
    exact (hb rfl).elim

/-- When both savers have written their change, the file has both. -/
lemma ReloadInv.both_toml (hinv : ReloadInv e g s) (h : ∀ b, (s.progress b).loaded) :
    Both s.toml := by
  intro b
  apply hinv.mem_toml
  intro hb
  have hload := h b
  rw [hb] at hload
  cases hload

/-- What the engine copied between two loads of the same even epoch. -/
lemma Collects.seen {state : SharedState} (h : Collects e g s.progress (s.shared.mem .epoch) state [])
    (hinv : ReloadInv e g s) (he : Seqlock.odd e = false)
    (heven : Seqlock.odd (s.shared.mem .epoch) = false) : s.Seen e g state := by
  obtain hepoch | hepoch | hepoch := hinv.stage.even he heven
  · obtain ⟨b, hb⟩ | ⟨hgen, hfirst⟩ := h.first hepoch
    · exact (hinv.stage.epoch_ne hb hepoch).elim
    · exact .inl ⟨hgen List.not_mem_nil, hfirst List.not_mem_nil⟩
  · obtain ⟨⟨a, ha⟩, hgen, hsecond⟩ := h.second hepoch
    have hahead : ¬Ahead g s.progress := fun hahead =>
      hinv.stage.epoch_of_ahead hinv.gens hahead hepoch
    have hgen' := (hgen List.not_mem_nil).resolve_right hahead
    obtain hsecond | hsame | hahead' := hsecond List.not_mem_nil
    · refine .inr (.inl ⟨hgen', hsecond, ?_⟩)
      obtain hother | hsaving := hinv.toml !a
      · refine .inl fun b => ?_
        obtain rfl | rfl := eq_or_eq_not a b
        · apply hinv.mem_toml
          intro hb
          rw [hb] at ha
          cases ha
        · exact hother
      · refine .inr ⟨a, ha, ?_⟩
        rw [Behind, hsaving]
        trivial
    · exact .inr (.inr ⟨fun b => (hsame b).1, .inr ⟨hgen', hsame⟩⟩)
    · exact (hahead hahead').elim
  · obtain ⟨-, hsettled⟩ := h.last hepoch
    exact .inr (.inr (hsettled List.not_mem_nil))

/-- The state that a failed reading gives is not valid. -/
lemma zero_not_isValid : ¬SharedState.zero.IsValid := by decide

/-- A step of `Read`, on the call and what it returned last. -/
inductive ReadStep (mem : SharedState) : Call → SharedState → Call → SharedState → Prop where
  | magic {r} : ReadStep mem .readMagic r (.readEpoch 0 .zero) r
  | epoch {i state r} : ReadStep mem (.readEpoch i state) r (.readCopy i (mem .epoch) state readOrder) r
  | copy {i before state f rest r} : ReadStep mem (.readCopy i before state (f :: rest)) r
    (.readCopy i before (Function.update state f (mem f)) rest) r
  | done {i state r} (heven : Seqlock.odd (mem .epoch) = false) :
    ReadStep mem (.readCopy i (mem .epoch) state []) r .idle state
  | retry {i before state r} (h : ¬(before = mem .epoch ∧ Seqlock.odd before = false)) :
    ReadStep mem (.readCopy i before state []) r (.readEpoch (i + 1) state) r
  | fail {i before state r} (h : ¬(before = mem .epoch ∧ Seqlock.odd before = false)) :
    ReadStep mem (.readCopy i before state []) r .idle .zero

/-- What a step of a reading does. -/
lemma readStep {s : Shared ConfigProcess} {p : ConfigProcess} (hmem : s.mem.IsValid)
    (hreading : (s.call p).isReading) : ReadStep s.mem (s.call p) (s.result p)
      ((s.step (.step p)).call p) ((s.step (.step p)).result p) := by
  simp only [Shared.step, Shared.stepCall]
  cases hc : s.call p with
  | readMagic =>
    simp only [if_pos hmem.1, Shared.goto, Function.update_self]
    exact .magic
  | readEpoch i state =>
    simp only [Shared.goto, Function.update_self]
    exact .epoch
  | readCopy i before state rest =>
    cases rest with
    | cons f rest =>
      simp only [Shared.copyField, Function.update_self]
      exact .copy
    | nil =>
      by_cases hepoch : before = s.mem .epoch ∧ Seqlock.odd before = false
      · simp only [if_pos hepoch, Shared.finish, Function.update_self]
        obtain ⟨rfl, heven⟩ := hepoch
        exact .done heven
      · simp only [if_neg hepoch]
        by_cases hretry : i + 1 < SEQLOCK_MAX_RETRIES
        · simp only [if_pos hretry, Shared.goto, Function.update_self]
          exact .retry hepoch
        · simp only [if_neg hretry, Shared.finish, Function.update_self]
          exact .fail hepoch
  | _ =>
    rw [hc] at hreading
    cases hreading

/-- A call of the engine is a reading. -/
lemma EngineReads.isReading (h : s.EngineReads e g) (hidle : s.shared.call .engine ≠ .idle) :
    (s.shared.call .engine).isReading := by
  rw [EngineReads] at h
  cases hc : s.shared.call .engine with
  | readMagic | readEpoch | readCopy => rfl
  | idle => exact (hidle hc).elim
  | _ =>
    rw [hc] at h
    cases h

/-- The engine takes a step of its `Read`. -/
lemma EngineReads.step (h : s.EngineReads e g) (hinv : ReloadInv e g s) (he : Seqlock.odd e = false)
    (hidle : s.shared.call .engine ≠ .idle) (hshared : s'.shared = s.shared.step (.step .engine))
    (hsame : SameSavers s s') : s'.EngineReads e g := by
  have hstep := readStep hinv.mem (h.isReading hidle)
  simp only [EngineReads, hshared, hsame.progress] at h ⊢
  generalize s.shared.call .engine = c at h hstep
  generalize (s.shared.step (.step .engine)).call .engine = c' at hstep ⊢
  generalize s.shared.result .engine = r at h hstep
  generalize (s.shared.step (.step .engine)).result .engine = r' at hstep ⊢
  cases hstep with
  | magic | retry => exact trivial
  | epoch => exact Collects.start hinv.stage
  | copy => exact Collects.copy h hinv.stage hinv.gens
  | done heven => exact fun _ => (Collects.seen h hinv he heven).mono hsame.onward
  | fail => exact fun hvalid => (zero_not_isValid hvalid).elim

/-- A call of the engine has returned exactly when it is in none. -/
lemma returned_iff {p : ConfigProcess} : s.returned p ↔ s.shared.call p = .idle := by
  rw [returned]
  cases s.shared.call p <;> simp

/-- A call of the engine does not write. -/
lemma EngineReads.quiet (h : s.EngineReads e g) : (s.shared.call .engine).isQuiet := by
  rw [EngineReads] at h
  cases hc : s.shared.call .engine <;> first | rfl | (rw [hc] at h; cases h)

/-- `ReadEpoch` takes a step. -/
lemma call_of_epoch {p : ConfigProcess} (hmem : s.shared.mem.IsValid)
    (h : s.shared.call p = .epochMagic ∨ s.shared.call p = .epochLoad) :
    (s.shared.step (.step p)).call p = .epochLoad ∨ (s.shared.step (.step p)).call p = .idle := by
  simp only [Shared.step, Shared.stepCall]
  obtain h | h := h
  · rw [h]
    dsimp only
    rw [if_pos hmem.1]
    exact .inl (Function.update_self ..)
  · rw [h]
    exact .inr (Function.update_self ..)

/-- The engine takes a step of a call on the shared state. -/
lemma EngineInv.call (h : s.EngineInv e g) (hinv : ReloadInv e g s) (he : Seqlock.odd e = false)
    (hidle : s.shared.call .engine ≠ .idle) (hshared : s'.shared = s.shared.step (.step .engine))
    (hsaver : s'.saver = s.saver) (htoml : s'.toml = s.toml) (htick : s'.tick = s.tick)
    (hconfig : s'.config = s.config) (hgen : s'.lastConfigGeneration = s.lastConfigGeneration)
    (hepoch : s'.lastEpoch = s.lastEpoch) : SameSavers s s' ∧ s'.EngineInv e g := by
  have hsame : (s.shared.call .engine).isQuiet → SameSavers s s' := fun hquiet =>
    @sameSavers_of_quiet s s' (.step .engine) rfl hquiet rfl hshared hsaver htoml
  simp only [EngineInv, htick] at h ⊢
  cases ht : s.tick with
  | idle | claim | checking | reloading =>
    rw [ht] at h
    exact (hidle h.1).elim
  | fastEpoch | slowEpoch =>
    rw [ht] at h
    obtain ⟨hcall, hcurrent⟩ := h
    have hcall' := hcall.imp_right fun h => h.resolve_right hidle
    have hsame' := hsame (by obtain h | h := hcall' <;> rw [h] <;> rfl)
    refine ⟨hsame', .inr ?_, hcurrent.mono hsame'.onward hconfig hgen hepoch⟩
    rw [hshared]
    exact call_of_epoch hinv.mem hcall'
  | reading | draining =>
    rw [ht] at h
    obtain ⟨hreads, hcurrent⟩ := h
    have hsame' := hsame hreads.quiet
    exact ⟨hsame', hreads.step hinv he hidle hshared hsame',
      hcurrent.mono hsame'.onward hconfig hgen hepoch⟩

/-- A step of a call of the engine. -/
lemma ReloadInv.engineCall (hinv : ReloadInv e g s) (he : Seqlock.odd e = false)
    (hreturned : ¬s.returned .engine) :
    ReloadInv e g { s with shared := s.shared.step (.step .engine) } := by
  obtain ⟨hsame, hengine⟩ := @EngineInv.call e g s { s with shared := s.shared.step (.step .engine) }
    hinv.engine hinv he (fun h => hreturned (returned_iff.2 h)) rfl rfl rfl rfl rfl rfl rfl
  exact hsame.reloadInv hinv hinv.config hengine

/-- The savers stand where nothing of theirs is touched. -/
lemma sameSavers_of_shared (hshared : s'.shared = s.shared) (hsaver : s'.saver = s.saver)
    (htoml : s'.toml = s.toml) : SameSavers s s' where
  mem := by rw [hshared]
  saver := hsaver
  call _ := by rw [hshared]
  result _ := by rw [hshared]
  toml := htoml

/-- A saver that is behind does not leave the generation of the other. -/
lemma OneBehind.not_settled {x : BitVec 8} (h : s.OneBehind e g) (hx : x = g + 1) :
    ¬Settled g s.progress x := by
  rintro ⟨hload, hlast | ⟨-, hsame⟩⟩
  · bv_omega
  · obtain ⟨a, -, hbehind⟩ := h
    obtain ⟨hload, hgen⟩ := hsame !a
    rw [Behind] at hbehind
    rw [progress] at hload hgen
    cases hsaver : s.saver !a with
    | writing state =>
      rw [hsaver] at hbehind hgen
      dsimp only at hbehind hgen
      have hstate : some (state .configGeneration) = some (g + 1) := by
        rw [← hgen]
        cases s.shared.call (.saver !a) <;> rfl
      rw [hbehind] at hstate
      exact next_ne_last rfl hstate.symm
    | _ =>
      rw [hsaver] at hload
      cases hload

/-- A settled generation is none that the savers will not leave. -/
lemma StaleGen.not_settled {x : BitVec 8} (h : s.StaleGen e g x) : ¬Settled g s.progress x := by
  rintro hsettled
  obtain ⟨hne, hne'⟩ | ⟨hgen, hbehind⟩ := h
  · obtain ⟨-, hlast | ⟨hnext, -⟩⟩ := hsettled
    · exact hne' hlast
    · exact hne hnext
  · exact hbehind.not_settled hgen hsettled

/-- The first generation is stale. -/
lemma staleGen_first : s.StaleGen e g g := by
  refine .inl ⟨?_, ?_⟩
  all_goals bv_omega

/-- The first epoch is stale. -/
lemma staleEpoch_first : s.StaleEpoch e g e := by
  refine .inl ⟨?_, ?_⟩
  all_goals bv_omega

/-- A `Read` of the engine has both saves before it, or sees what will not last. -/
lemma Seen.stale {state : SharedState} (h : s.Seen e g state) (hinv : ReloadInv e g s) :
    Both s.toml ∨
      s.StaleGen e g (state .configGeneration) ∧ s.StaleEpoch e g (state .epoch) := by
  obtain ⟨hgen, hepoch⟩ | ⟨hgen, hepoch, hboth | hbehind⟩ | hsettled := h
  · rw [hgen, hepoch]
    exact .inr ⟨staleGen_first, staleEpoch_first⟩
  · exact .inl hboth
  · exact .inr ⟨.inr ⟨hgen, hbehind⟩, .inr ⟨hepoch, hbehind⟩⟩
  · exact .inl (hinv.both_toml hsettled.1)

/-- When the engine finds the generation that it last saw, it has last seen that epoch. -/
lemma Seen.staleEpoch {state : SharedState} (h : s.Seen e g state)
    (hstale : s.StaleGen e g (state .configGeneration)) : s.StaleEpoch e g (state .epoch) := by
  obtain ⟨-, hepoch⟩ | ⟨hgen, hepoch, -⟩ | hsettled := h
  · rw [hepoch]
    exact staleEpoch_first
  · obtain ⟨hne, -⟩ | ⟨-, hbehind⟩ := hstale
    · exact (hne hgen).elim
    · exact .inr ⟨hepoch, hbehind⟩
  · exact (hstale.not_settled hsettled).elim

/-- The engine begins a call on the shared state. -/
lemma begin_call {p : ConfigProcess} {c : Call} (hidle : s.shared.call p = .idle) :
    (s.shared.start p c).call p = c := by
  rw [Shared.start, hidle]
  exact Function.update_self ..

/-- The engine ends its tick. -/
lemma ReloadInv.endTick (hinv : ReloadInv e g s) (hidle : s.shared.call .engine = .idle)
    (hcurrent : s.Current e g) : ReloadInv e g { s with tick := .idle } := by
  have hsame : SameSavers s { s with tick := .idle } := sameSavers_of_shared rfl rfl rfl
  exact hsame.reloadInv hinv hinv.config ⟨hidle, hcurrent.mono hsame.onward rfl rfl rfl⟩

/-- The engine loads the epoch. -/
lemma ReloadInv.beginEpoch {tick : EngineTick} (hinv : ReloadInv e g s)
    (hidle : s.shared.call .engine = .idle) (hcurrent : s.Current e g)
    (htick : tick = .fastEpoch ∨ tick = .slowEpoch) :
    ReloadInv e g { s with shared := s.shared.step (.ReadEpoch .engine), tick := tick } := by
  have hsame : SameSavers s { s with shared := s.shared.step (.ReadEpoch .engine), tick := tick } :=
    @sameSavers_of_quiet s _ (.ReadEpoch .engine) rfl (by rw [hidle]; rfl) rfl rfl rfl rfl
  refine hsame.reloadInv hinv hinv.config ?_
  have hnext := hcurrent.mono hsame.onward rfl rfl rfl
  obtain rfl | rfl := htick
  · exact ⟨.inl (begin_call hidle), hnext⟩
  · exact ⟨.inl (begin_call hidle), hnext⟩

/-- The engine begins its `Read`. -/
lemma ReloadInv.beginRead {tick : EngineTick} {pending : Bool} (hinv : ReloadInv e g s)
    (hidle : s.shared.call .engine = .idle) (hcurrent : s.Current e g)
    (htick : (∃ seenEpoch, tick = .reading seenEpoch) ∨ tick = .draining) :
    ReloadInv e g
      { s with
        shared := s.shared.step (.Read .engine)
        pendingConfigReload := pending
        tick := tick } := by
  have hsame : SameSavers s
      { s with
        shared := s.shared.step (.Read .engine)
        pendingConfigReload := pending
        tick := tick } :=
    @sameSavers_of_quiet s _ (.Read .engine) rfl (by rw [hidle]; rfl) rfl rfl rfl rfl
  refine hsame.reloadInv hinv hinv.config ?_
  have hnext := hcurrent.mono hsame.onward rfl rfl rfl
  have hcall : (s.shared.step (.Read .engine)).call .engine = .readMagic := begin_call hidle
  have hreads : EngineReads e g
      { s with
        shared := s.shared.step (.Read .engine)
        pendingConfigReload := pending
        tick := tick } := by
    simp only [EngineReads, hcall]
  obtain ⟨seenEpoch, rfl⟩ | rfl := htick
  · exact ⟨hreads, hnext⟩
  · exact ⟨hreads, hnext⟩

/-- The engine has the state that its `Read` returned. -/
lemma EngineReads.seen (h : s.EngineReads e g) (hidle : s.shared.call .engine = .idle)
    (hvalid : (s.shared.result .engine).IsValid) : s.Seen e g (s.shared.result .engine) := by
  rw [EngineReads, hidle] at h
  exact h hvalid

/-- The engine does what it does between two calls. -/
lemma ReloadInv.advance (hinv : ReloadInv e g s) (hidle : s.shared.call .engine = .idle) :
    ReloadInv e g s.advance := by
  have hengine := hinv.engine
  obtain ⟨tick, htick⟩ : ∃ tick, s.tick = tick := ⟨_, rfl⟩
  rw [EngineInv, htick] at hengine
  simp only [ConfigReload.advance, htick]
  cases tick with
  | idle => exact hinv
  | fastEpoch =>
    obtain ⟨-, hcurrent⟩ := hengine
    by_cases hdate : s.upToDate
    · simp only [if_pos hdate]
      exact hinv.endTick hidle hcurrent
    · simp only [if_neg hdate]
      exact hinv.beginEpoch hidle hcurrent (.inr rfl)
  | slowEpoch =>
    obtain ⟨-, hcurrent⟩ := hengine
    by_cases hdate : s.upToDate
    · simp only [if_pos hdate]
      exact hinv.endTick hidle hcurrent
    · simp only [if_neg hdate]
      exact hinv.beginRead hidle hcurrent (.inl ⟨_, rfl⟩)
  | reading seenEpoch =>
    obtain ⟨hreads, hcurrent⟩ := hengine
    by_cases hvalid : (s.shared.result .engine).IsValid
    · simp only [if_pos hvalid]
      have hsame : SameSavers s { s with tick := .claim seenEpoch (s.shared.result .engine) } :=
        sameSavers_of_shared rfl rfl rfl
      exact hsame.reloadInv hinv hinv.config ⟨hidle, (hreads.seen hidle hvalid).mono hsame.onward,
        hcurrent.mono hsame.onward rfl rfl rfl⟩
    · simp only [if_neg hvalid]
      exact hinv.endTick hidle hcurrent
  | claim seenEpoch state =>
    obtain ⟨-, hseen, hcurrent⟩ := hengine
    by_cases hclaim : s.lastEpoch = seenEpoch
    · simp only [if_pos hclaim]
      have hsame : SameSavers s { s with lastEpoch := state .epoch, tick := .checking state } :=
        sameSavers_of_shared rfl rfl rfl
      refine hsame.reloadInv hinv hinv.config ⟨hidle, hseen.mono hsame.onward, rfl, ?_⟩
      exact hcurrent.imp_right fun h => h.1.mono hsame.onward
    · simp only [if_neg hclaim]
      exact hinv.endTick hidle hcurrent
  | checking state =>
    obtain ⟨-, hseen, hlast, hstale⟩ := hengine
    by_cases hgen : state .configGeneration = s.lastConfigGeneration
    · simp only [if_pos hgen]
      refine hinv.endTick hidle ?_
      obtain hboth | hstale := hstale
      · exact .inl hboth
      · refine .inr ⟨hstale, ?_⟩
        rw [← hgen] at hstale
        rw [hlast]
        exact hseen.staleEpoch hstale
    · simp only [if_neg hgen]
      have hsame : SameSavers s
          { s with lastConfigGeneration := state .configGeneration, tick := .reloading } :=
        sameSavers_of_shared rfl rfl rfl
      refine hsame.reloadInv hinv hinv.config ⟨hidle, ?_⟩
      obtain hboth | ⟨hx, hy⟩ := hseen.stale hinv
      · exact .inl hboth
      · rw [← hlast] at hy
        exact .inr ⟨hx.mono hsame.onward, hy.mono hsame.onward⟩
  | draining =>
    obtain ⟨hreads, hcurrent⟩ := hengine
    by_cases hvalid : (s.shared.result .engine).IsValid
    · simp only [if_pos hvalid]
      have hsame : SameSavers s
          { s with
            lastConfigGeneration := (s.shared.result .engine) .configGeneration
            tick := .reloading } := sameSavers_of_shared rfl rfl rfl
      refine hsame.reloadInv hinv hinv.config ⟨hidle, ?_⟩
      obtain hboth | ⟨-, hy⟩ := hcurrent
      · exact .inl (hboth.mono hinv.config)
      · obtain hboth | ⟨hx, -⟩ := (hreads.seen hidle hvalid).stale hinv
        · exact .inl hboth
        · exact .inr ⟨hx.mono hsame.onward, hy.mono hsame.onward⟩
    · simp only [if_neg hvalid]
      exact hinv.endTick hidle hcurrent
  | reloading =>
    obtain ⟨-, hstale⟩ := hengine
    have hsame : SameSavers s { s with config := s.toml, tick := .idle } :=
      sameSavers_of_shared rfl rfl rfl
    refine hsame.reloadInv hinv (fun _ h => h) ⟨hidle, ?_⟩
    exact hstale.imp_right fun h => ⟨h.1.mono hsame.onward, h.2.mono hsame.onward⟩

/-- The engine takes its next step. -/
lemma ReloadInv.stepEngine (hinv : ReloadInv e g s) (he : Seqlock.odd e = false) :
    ReloadInv e g s.stepEngine := by
  rw [ConfigReload.stepEngine]
  by_cases hreturned : s.returned .engine
  · rw [if_pos hreturned]
    exact hinv.advance (returned_iff.1 hreturned)
  · rw [if_neg hreturned]
    exact hinv.engineCall he hreturned

/-- A key begins to synchronize. -/
lemma ReloadInv.quickSync (hinv : ReloadInv e g s) (htick : s.tick = .idle) :
    ReloadInv e g { s with shared := s.shared.step (.ReadEpoch .engine), tick := .fastEpoch } := by
  have hengine := hinv.engine
  rw [EngineInv, htick] at hengine
  exact hinv.beginEpoch hengine.1 hengine.2 (.inl rfl)

/-- A tick begins to poll. -/
lemma ReloadInv.tickPoll (hinv : ReloadInv e g s) (htick : s.tick = .idle) :
    ReloadInv e g
      { s with
        shared := s.shared.step (.Read .engine)
        pendingConfigReload := false
        tick := .draining } := by
  have hengine := hinv.engine
  rw [EngineInv, htick] at hengine
  exact hinv.beginRead hengine.1 hengine.2 (.inr rfl)

/-- A reload is put off. -/
lemma ReloadInv.deferReload (hinv : ReloadInv e g s) :
    ReloadInv e g { s with pendingConfigReload := true } := by
  have hsame : SameSavers s { s with pendingConfigReload := true } := sameSavers_of_shared rfl rfl rfl
  exact hsame.reloadInv hinv hinv.config
    (hinv.engine.mono hsame.onward rfl rfl rfl rfl rfl rfl)

end

/-- A process leaves the calls of the others alone. -/
lemma step_other {π : Type} [DecidableEq π] {s : Shared π} {ev : SharedEvent π} {q : π}
    (hq : q ≠ ev.process) : (s.step ev).call q = s.call q ∧ (s.step ev).result q = s.result q := by
  cases ev with
  | step p =>
    replace hq : q ≠ p := hq
    simp only [Shared.step, Shared.stepCall]
    split
    all_goals
      repeat' split
      all_goals
        simp [Shared.goto, Shared.finish, Shared.copyField, Shared.store, Shared.applyFlag,
          Function.update_of_ne hq]
  | _ p =>
    replace hq : q ≠ p := hq
    simp only [Shared.step, Shared.start]
    split
    all_goals simp [Shared.goto, Function.update_of_ne hq]

/-- A saver takes a step; the other saver and the engine stay. -/
structure SaverMove (e : BitVec 32) (g : BitVec 8) (b : Bool) (s s' : ConfigReload) : Prop where
  saver : s'.saver (!b) = s.saver (!b)
  call : ∀ p, p ≠ .saver b → s'.shared.call p = s.shared.call p
  result : ∀ p, p ≠ .saver b → s'.shared.result p = s.shared.result p
  tick : s'.tick = s.tick
  lastEpoch : s'.lastEpoch = s.lastEpoch
  lastConfigGeneration : s'.lastConfigGeneration = s.lastConfigGeneration
  config : s'.config = s.config
  toml : ∀ c ∈ s.toml, c ∈ s'.toml
  own : b ∈ s'.toml ∨ s'.saver b = .saving
  grows : Progress.Grows (s.progress b) (s'.progress b)
  behind : (s.progress !b).isFinished → s.Behind e g b → s'.Behind e g b

section
variable {e : BitVec 32} {g : BitVec 8} {s s' : ConfigReload} {b : Bool}

/-- The other saver is another process. -/
lemma saver_not_ne : ConfigProcess.saver (!b) ≠ .saver b := by
  cases b <;> nofun

/-- The other saver stands. -/
lemma SaverMove.progress_not (h : SaverMove e g b s s') : s'.progress (!b) = s.progress (!b) := by
  simp only [progress, h.saver, h.call _ saver_not_ne]

/-- A saver only goes on. -/
lemma SaverMove.progress_grows (h : SaverMove e g b s s') (c : Bool) :
    Progress.Grows (s.progress c) (s'.progress c) := by
  obtain rfl | rfl := eq_or_eq_not b c
  · exact h.grows
  · rw [h.progress_not]
    exact Progress.Grows.refl

/-- The progress of one saver changes. -/
lemma SaverMove.progress_eq (h : SaverMove e g b s s') :
    s'.progress = Function.update s.progress b (s'.progress b) := by
  funext c
  obtain rfl | rfl := eq_or_eq_not b c
  · rw [Function.update_self]
  · rw [update_not_self, h.progress_not]

/-- The other saver is behind as before. -/
lemma SaverMove.behind_not (h : SaverMove e g b s s') : s'.Behind e g (!b) ↔ s.Behind e g (!b) := by
  simp only [Behind, h.saver, h.call _ saver_not_ne, h.result _ saver_not_ne]

/-- A move of a saver does not take anything back. -/
lemma SaverMove.onward (h : SaverMove e g b s s') : Onward e g s s' where
  progress := h.progress_grows
  toml := h.toml
  behind := by
    rintro ⟨a, ha, hbehind⟩
    refine ⟨a, (h.progress_grows a).finished ha, ?_⟩
    obtain rfl | rfl := eq_or_eq_not b a
    · exact h.behind_not.2 hbehind
    · rw [Bool.not_not] at hbehind ⊢
      exact h.behind ha hbehind

/-- A reading of a saver stays explained as the other goes on. -/
lemma SaverReads.mono {other other' : Progress} {result : SharedState} {c : Call}
    (h : SaverReads e g other result c) (hgrows : Progress.Grows other other') :
    SaverReads e g other' result c := by
  cases c with
  | readCopy i before state rest =>
    obtain ⟨hvalid, hbefore, hgen⟩ := h
    refine ⟨hvalid, fun hmarked => hbefore ?_, fun hf => ?_⟩
    · cases hother : other.marked with
      | false => rfl
      | true =>
        rw [hgrows.marked hother] at hmarked
        cases hmarked
    · obtain hgen | ⟨hgen, hstored⟩ := hgen hf
      · exact .inl hgen
      · exact .inr ⟨hgen, hgrows.stored hstored⟩
  | idle =>
    obtain ⟨hgen, hmarked⟩ := h
    refine ⟨fun hvalid => ?_, fun hvalid => hgrows.marked (hmarked hvalid)⟩
    obtain hgen | ⟨hgen, hstored⟩ := hgen hvalid
    · exact .inl hgen
    · exact .inr ⟨hgen, hgrows.stored hstored⟩
  | _ => exact h

/-- A step of a saver keeps what holds of the other saver and the engine. -/
lemma SaverMove.reloadInv (h : SaverMove e g b s s') (hinv : ReloadInv e g s)
    (hmem : s'.shared.mem.IsValid) (hsaver : s'.SaverInv e g b)
    (hstage : Stage e g (s'.shared.mem .epoch) (s'.shared.mem .configGeneration) s'.progress)
    (hgens : Gens g s'.progress) : ReloadInv e g s' where
  mem := hmem
  saver c := by
    obtain rfl | rfl := eq_or_eq_not b c
    · exact hsaver
    · have hother := hinv.saver !b
      simp only [SaverInv, h.saver, h.call _ saver_not_ne, h.result _ saver_not_ne,
        Bool.not_not] at hother ⊢
      cases hs : s.saver !b with
      | saving | saved | writing =>
        rw [hs] at hother
        exact hother
      | reading =>
        rw [hs] at hother
        exact hother.mono h.grows
      | skipped =>
        rw [hs] at hother
        exact ⟨hother.1, h.grows.marked hother.2⟩
  stage := hstage
  gens := hgens
  toml c := by
    obtain rfl | rfl := eq_or_eq_not b c
    · exact h.own
    · rw [h.saver]
      exact (hinv.toml !b).imp_left (h.toml _)
  config c hc := by
    rw [h.config] at hc
    exact h.toml c (hinv.config c hc)
  engine := hinv.engine.mono h.onward h.tick (h.call _ nofun) (h.result _ nofun) h.config
    h.lastConfigGeneration h.lastEpoch

/-- A step of a saver that stores nothing and does not begin its write. -/
lemma SaverMove.quiet (h : SaverMove e g b s s') (hinv : ReloadInv e g s)
    (hmem : s'.shared.mem = s.shared.mem) (hprogress : s'.progress b = s.progress b)
    (hsaver : s'.SaverInv e g b) : ReloadInv e g s' := by
  have hsame : s'.progress = s.progress := by
    funext c
    obtain rfl | rfl := eq_or_eq_not b c
    · exact hprogress
    · exact h.progress_not
  apply h.reloadInv hinv
  · rw [hmem]
    exact hinv.mem
  · exact hsaver
  · rw [hmem, hsame]
    exact hinv.stage
  · rw [hsame]
    exact hinv.gens

/-- An update for one saver leaves the other. -/
lemma update_not {x : Saver} : Function.update s.saver b x (!b) = s.saver (!b) := by
  cases b <;> rfl

/-- A saver stays out of its write. -/
lemma saverMove_of_before {shared : Shared ConfigProcess} {toml : List Bool} {x : Saver}
    (hs : s.progress b = .before)
    (hcall : ∀ p, p ≠ .saver b → shared.call p = s.shared.call p)
    (hresult : ∀ p, p ≠ .saver b → shared.result p = s.shared.result p)
    (htoml : ∀ c ∈ s.toml, c ∈ toml) (hown : b ∈ toml)
    (hbehind : (s.progress !b).isFinished → s.Behind e g b →
      Behind e g { s with shared := shared, toml := toml, saver := Function.update s.saver b x } b)
    (hx : progress { s with shared := shared, toml := toml, saver := Function.update s.saver b x } b =
      .before) :
    SaverMove e g b s
      { s with shared := shared, toml := toml, saver := Function.update s.saver b x } where
  saver := update_not
  call := hcall
  result := hresult
  tick := rfl
  lastEpoch := rfl
  lastConfigGeneration := rfl
  config := rfl
  toml := htoml
  own := .inl hown
  grows := by
    rw [hs, hx]
    exact Progress.Grows.refl
  behind := hbehind

/-- A saver that does not write has published nothing. -/
lemma progress_of_not_writing (h : ∀ state, s.saver b ≠ .writing state) :
    s.progress b = .before := by
  rw [progress]
  cases hs : s.saver b with
  | writing state => exact (h state hs).elim
  | _ => rfl

/-- A saver writes its TOML. -/
lemma ReloadInv.saving (hinv : ReloadInv e g s) (hs : s.saver b = .saving) :
    ReloadInv e g { s with toml := b :: s.toml, saver := Function.update s.saver b .saved } := by
  have hbefore : s.progress b = .before := progress_of_not_writing (by simp [hs])
  have hsaver := hinv.saver b
  rw [SaverInv, hs] at hsaver
  have hafter : progress { s with toml := b :: s.toml, saver := Function.update s.saver b .saved } b =
      .before := progress_of_not_writing (by simp)
  refine SaverMove.quiet (saverMove_of_before hbefore (fun _ _ => rfl) (fun _ _ => rfl)
    (fun _ => List.mem_cons_of_mem _) (List.mem_cons_self ..) ?_ hafter) hinv rfl ?_ ?_
  · intro _ _
    simp only [Behind, Function.update_self]
  · rw [hbefore, hafter]
  · simp only [SaverInv, Function.update_self]
    exact hsaver

/-- A saver begins its `Read`. -/
lemma ReloadInv.saved (hinv : ReloadInv e g s) (hs : s.saver b = .saved) :
    ReloadInv e g
      { s with
        shared := s.shared.step (.Read (.saver b))
        saver := Function.update s.saver b .reading } := by
  have hbefore : s.progress b = .before := progress_of_not_writing (by simp [hs])
  have hsaver := hinv.saver b
  rw [SaverInv, hs] at hsaver
  have hcall : (s.shared.step (.Read (.saver b))).call (.saver b) = .readMagic := begin_call hsaver
  have hafter : progress
      { s with
        shared := s.shared.step (.Read (.saver b))
        saver := Function.update s.saver b .reading } b = .before :=
    progress_of_not_writing (by simp)
  have hown := (hinv.toml b).resolve_right (by simp [hs])
  refine SaverMove.quiet (saverMove_of_before hbefore (fun _ h => (step_other h).1)
    (fun _ h => (step_other h).2) (fun _ h => h) hown ?_ hafter) hinv ?_ ?_ ?_
  · intro _ _
    simp only [Behind, Function.update_self, hcall, BehindReads]
  · have hquiet : (s.shared.call (.saver b)).isQuiet := by
      rw [hsaver]
      rfl
    exact (@step_of_quiet ConfigProcess _ _ (.Read (.saver b)) hquiet rfl).1
  · rw [hbefore, hafter]
  · simp only [SaverInv, Function.update_self, hcall, SaverReads]

/-- A saver takes a step of its `Read`. -/
lemma SaverReads.step {r r' : SharedState} {c c' : Call} (h : SaverReads e g (s.progress !b) r c)
    (hinv : ReloadInv e g s) (he : Seqlock.odd e = false) (hb : s.progress b = .before)
    (hstep : ReadStep s.shared.mem c r c' r') : SaverReads e g (s.progress !b) r' c' := by
  have hfirst : (s.progress !b).marked = false → s.shared.mem .epoch = e := by
    intro hmarked
    refine (hinv.stage.unmarked fun c => ?_).1
    obtain rfl | rfl := eq_or_eq_not b c
    · rw [hb]
      rfl
    · exact hmarked
  cases hstep with
  | magic | retry => exact trivial
  | epoch => exact ⟨CopiedValid.start, hfirst, fun hf => absurd (mem_readOrder _) hf⟩
  | @copy i before state f rest =>
    obtain ⟨hvalid, hbefore, hgen⟩ := h
    exact ⟨hvalid.copy hinv.mem, hbefore,
      @copied s.shared.mem state f .configGeneration rest
        (fun x => x = g ∨ x = g + 1 ∧ (s.progress !b).stored) hgen
        (hinv.stage.gen_before hinv.gens hb)⟩
  | done =>
    obtain ⟨hvalid, -, hgen⟩ := h
    exact ⟨fun _ => hgen List.not_mem_nil, fun hinvalid => (hinvalid hvalid.isValid).elim⟩
  | fail hfail =>
    obtain ⟨-, hbefore, -⟩ := h
    refine ⟨fun hvalid => (zero_not_isValid hvalid).elim, fun _ => ?_⟩
    cases hmarked : (s.progress !b).marked with
    | true => rfl
    | false =>
      have heq := hbefore hmarked
      exact (hfail ⟨heq.trans (hfirst hmarked).symm, heq ▸ he⟩).elim

/-- A saver that is behind takes a step of its `Read`. -/
lemma BehindReads.step {r r' : SharedState} {c c' : Call} (h : BehindReads e g r c)
    (hinv : ReloadInv e g s) (he : Seqlock.odd e = false) (hb : s.progress b = .before)
    (hother : (s.progress !b).isFinished) (hstep : ReadStep s.shared.mem c r c' r') :
    BehindReads e g r' c' := by
  obtain ⟨hepoch, hmem⟩ := hinv.stage.after_other hinv.gens hb hother
  cases hstep with
  | magic | retry => exact trivial
  | epoch => exact ⟨hepoch, CopiedValid.start, fun hf => absurd (mem_readOrder _) hf⟩
  | @copy i before state f rest =>
    obtain ⟨hbefore, hvalid, hgen⟩ := h
    exact ⟨hbefore, hvalid.copy hinv.mem,
      @copied s.shared.mem state f .configGeneration rest (· = g + 1) hgen hmem⟩
  | done =>
    obtain ⟨-, hvalid, hgen⟩ := h
    exact ⟨hvalid.isValid, hgen List.not_mem_nil⟩
  | fail hfail =>
    obtain ⟨hbefore, -⟩ := h
    exact (hfail ⟨hbefore.trans hepoch.symm, hbefore ▸ odd_next_next he⟩).elim

/-- A saver takes a step of its call on the shared state. -/
lemma saverMove_of_step (hs : s.saver b ≠ .saving) (hinv : ReloadInv e g s)
    (hgrows : Progress.Grows (s.progress b)
      (progress { s with shared := s.shared.step (.step (.saver b)) } b))
    (hbehind : (s.progress !b).isFinished → s.Behind e g b →
      Behind e g { s with shared := s.shared.step (.step (.saver b)) } b) :
    SaverMove e g b s { s with shared := s.shared.step (.step (.saver b)) } where
  saver := rfl
  call _ h := (step_other h).1
  result _ h := (step_other h).2
  tick := rfl
  lastEpoch := rfl
  lastConfigGeneration := rfl
  config := rfl
  toml _ h := h
  own := .inl ((hinv.toml b).resolve_right hs)
  grows := hgrows
  behind := hbehind

/-- A call of a saver that is explained so is a reading. -/
lemma SaverReads.isReading {other : Progress} {r : SharedState} {c : Call}
    (h : SaverReads e g other r c) (hidle : c ≠ .idle) : c.isReading := by
  cases c with
  | readMagic | readEpoch | readCopy => rfl
  | idle => exact (hidle rfl).elim
  | _ => cases h

/-- A saver is in its `Read`. -/
lemma ReloadInv.reading (hinv : ReloadInv e g s) (he : Seqlock.odd e = false)
    (hs : s.saver b = .reading) (hidle : s.shared.call (.saver b) ≠ .idle) :
    ReloadInv e g { s with shared := s.shared.step (.step (.saver b)) } := by
  have hbefore : s.progress b = .before := progress_of_not_writing (by simp [hs])
  have hsaver := hinv.saver b
  rw [SaverInv, hs] at hsaver
  have hreading := hsaver.isReading hidle
  have hstep := readStep hinv.mem hreading
  have hquiet : (s.shared.call (.saver b)).isQuiet := by
    revert hreading
    cases s.shared.call (.saver b) <;> simp [Call.isReading, Call.isQuiet]
  have hafter : progress { s with shared := s.shared.step (.step (.saver b)) } b = .before :=
    progress_of_not_writing (by simp [hs])
  have hmove : SaverMove e g b s { s with shared := s.shared.step (.step (.saver b)) } := by
    refine saverMove_of_step (by simp [hs]) hinv ?_ ?_
    · rw [hbefore, hafter]
      exact Progress.Grows.refl
    · intro hother hbehind
      simp only [Behind, hs] at hbehind ⊢
      exact hbehind.step hinv he hbefore hother hstep
  refine hmove.quiet hinv ?_ ?_ ?_
  · exact (@step_of_quiet ConfigProcess _ _ (.step (.saver b)) hquiet rfl).1
  · rw [hbefore, hafter]
  · simp only [SaverInv, hs]
    rw [hmove.progress_not]
    exact SaverReads.step hsaver hinv he hbefore hstep

/-- The `Read` of a saver fails. -/
lemma ReloadInv.skip (hinv : ReloadInv e g s) (hs : s.saver b = .reading)
    (hidle : s.shared.call (.saver b) = .idle)
    (hinvalid : ¬(s.shared.result (.saver b)).IsValid) :
    ReloadInv e g { s with saver := Function.update s.saver b .skipped } := by
  have hbefore : s.progress b = .before := progress_of_not_writing (by simp [hs])
  have hsaver := hinv.saver b
  simp only [SaverInv, hs, hidle, SaverReads] at hsaver
  have hafter : progress { s with saver := Function.update s.saver b .skipped } b = .before :=
    progress_of_not_writing (by simp)
  have hown := (hinv.toml b).resolve_right (by simp [hs])
  have hmove := @saverMove_of_before e g s b s.shared s.toml .skipped hbefore (fun _ _ => rfl)
    (fun _ _ => rfl) (fun _ h => h) hown
    (by
      intro _ hbehind
      simp only [Behind, hs, hidle, BehindReads] at hbehind
      exact (hinvalid hbehind.1).elim)
    hafter
  refine hmove.quiet hinv rfl ?_ ?_
  · rw [hbefore, hafter]
  · simp only [SaverInv, Function.update_self]
    refine ⟨hidle, ?_⟩
    rw [hmove.progress_not]
    exact hsaver.2 hinvalid

/-- A saver begins its `Write`. -/
lemma ReloadInv.beginWrite {change : ConfigChange} {state : SharedState} (hinv : ReloadInv e g s)
    (hs : s.saver b = .reading) (hidle : s.shared.call (.saver b) = .idle)
    (hstate : s.shared.result (.saver b) = state) (hvalid : state.IsValid) :
    ReloadInv e g
      { s with
        shared := s.shared.step (.Write (.saver b) (change.edit state))
        saver := Function.update s.saver b (.writing (change.edit state)) } := by
  have hbefore : s.progress b = .before := progress_of_not_writing (by simp [hs])
  have hsaver := hinv.saver b
  simp only [SaverInv, hs, hidle, hstate, SaverReads] at hsaver
  have hgen := hsaver.1 hvalid
  have hcall : (s.shared.step (.Write (.saver b) (change.edit state))).call (.saver b) =
      .writeLoad (change.edit state) := by
    simp only [Shared.step, hidle]
    exact Function.update_self ..
  have hmem : (s.shared.step (.Write (.saver b) (change.edit state))).mem = s.shared.mem := by
    simp only [Shared.step, hidle]
    rfl
  have hafter : progress
      { s with
        shared := s.shared.step (.Write (.saver b) (change.edit state))
        saver := Function.update s.saver b (.writing (change.edit state)) } b =
          .begun (state .configGeneration + 1) := by
    simp only [progress, Function.update_self, hcall, edit_generation]
  have hmove : SaverMove e g b s
      { s with
        shared := s.shared.step (.Write (.saver b) (change.edit state))
        saver := Function.update s.saver b (.writing (change.edit state)) } :=
    { saver := update_not
      call := fun _ h => (step_other h).1
      result := fun _ h => (step_other h).2
      tick := rfl
      lastEpoch := rfl
      lastConfigGeneration := rfl
      config := rfl
      toml := fun _ h => h
      own := .inl ((hinv.toml b).resolve_right (by simp [hs]))
      grows := by
        rw [hbefore, hafter]
        exact Progress.Grows.begin
      behind := by
        intro _ hbehind
        simp only [Behind, hs, hidle, hstate, BehindReads, Function.update_self] at hbehind ⊢
        rw [edit_generation, hbehind.2] }
  apply hmove.reloadInv hinv
  · rw [hmem]
    exact hinv.mem
  · simp only [SaverInv, Function.update_self, hcall, WritesState]
    exact ⟨edit_isValid hvalid, trivial⟩
  · rw [hmem, hmove.progress_eq, hafter]
    exact hinv.stage.begin hbefore
  · rw [hmove.progress_eq, hafter]
    intro c x hx
    obtain rfl | rfl := eq_or_eq_not b c
    · rw [Function.update_self] at hx
      obtain rfl := Option.some.inj hx
      rw [update_not_self]
      obtain hgen | ⟨hgen, hstored⟩ := hgen
      · exact .inl (congrArg (· + 1) hgen)
      · exact .inr ⟨congrArg (· + 1) hgen, hstored⟩
    · rw [update_not_self] at hx
      obtain hx | ⟨hx, hstored⟩ := hinv.gens _ x hx
      · exact .inl hx
      · rw [Bool.not_not, hbefore] at hstored
        cases hstored

/-- A step of a `Write`, by its effect on the progress. -/
lemma ReloadInv.of_write {state : SharedState} {p : Progress} (hinv : ReloadInv e g s)
    (hs : s.saver b = .writing state)
    (hprogress : progress { s with shared := s.shared.step (.step (.saver b)) } b = p)
    (hgrows : Progress.Grows (s.progress b) p) (hgen : p.gen = (s.progress b).gen)
    (hmem : (s.shared.step (.step (.saver b))).mem.IsValid)
    (hwrites : WritesState state ((s.shared.step (.step (.saver b))).call (.saver b)))
    (hstage : Stage e g ((s.shared.step (.step (.saver b))).mem .epoch)
      ((s.shared.step (.step (.saver b))).mem .configGeneration) (Function.update s.progress b p)) :
    ReloadInv e g { s with shared := s.shared.step (.step (.saver b)) } := by
  have hsaver := hinv.saver b
  simp only [SaverInv, hs] at hsaver
  have hmove : SaverMove e g b s { s with shared := s.shared.step (.step (.saver b)) } := by
    refine saverMove_of_step (by simp [hs]) hinv ?_ ?_
    · rw [hprogress]
      exact hgrows
    · intro _ hbehind
      simp only [Behind, hs] at hbehind ⊢
      exact hbehind
  apply hmove.reloadInv hinv hmem
  · simp only [SaverInv, hs]
    exact ⟨hsaver.1, hwrites⟩
  · rw [hmove.progress_eq, hprogress]
    exact hstage
  · refine hinv.gens.of_grows hmove.progress_grows fun c => ?_
    obtain rfl | rfl := eq_or_eq_not b c
    · rw [hprogress, hgen]
    · rw [hmove.progress_not]

/-- The generation is written. -/
lemma mem_writeOrder_generation : SharedField.configGeneration ∈ writeOrder := mem_writeOrder.2 nofun

/-- A saver loads the epoch. -/
lemma ReloadInv.writeLoad {state : SharedState} (hinv : ReloadInv e g s)
    (he : Seqlock.odd e = false) (hs : s.saver b = .writing state)
    (hcall : s.shared.call (.saver b) = .writeLoad state)
    (heven : Seqlock.odd (s.shared.mem .epoch) = false) :
    ReloadInv e g { s with shared := s.shared.step (.step (.saver b)) } := by
  have hstep : s.shared.step (.step (.saver b)) =
      s.shared.goto (.saver b) (.writeMark state (s.shared.mem .epoch + 1)) := by
    simp only [Shared.step, Shared.stepCall, hcall]
  have hbegun : s.progress b = .begun (state .configGeneration) := by
    simp only [progress, hs, hcall]
  refine hinv.of_write (p := .marking (state .configGeneration) (s.shared.mem .epoch + 1))
    hs ?_ ?_ ?_ ?_ ?_ ?_
  · simp only [progress, hs, hstep, Shared.goto, Function.update_self]
  · have hmove : Progress.Move (s.shared.mem .epoch) (s.shared.mem .configGeneration)
        (.begun (state .configGeneration)) (s.shared.mem .epoch) (s.shared.mem .configGeneration)
        (.marking (state .configGeneration) (s.shared.mem .epoch + 1)) := .load heven
    rw [hbegun]
    exact hmove.grows
  · rw [hbegun]
    rfl
  · rw [hstep]
    exact hinv.mem
  · simp only [hstep, Shared.goto, Function.update_self, WritesState]
  · rw [hstep]
    exact hinv.stage.load hinv.gens he heven hbegun

/-- A saver stores the odd epoch. -/
lemma ReloadInv.writeMark {state : SharedState} {seq} (hinv : ReloadInv e g s)
    (hs : s.saver b = .writing state) (hcall : s.shared.call (.saver b) = .writeMark state seq) :
    ReloadInv e g { s with shared := s.shared.step (.step (.saver b)) } := by
  have hstep : s.shared.step (.step (.saver b)) =
      (s.shared.store .epoch seq).goto (.saver b) (.writeCopy state seq writeOrder) := by
    simp only [Shared.step, Shared.stepCall, hcall]
  have hmarking : s.progress b = .marking (state .configGeneration) seq := by
    simp only [progress, hs, hcall]
  have hmove : Progress.Move (s.shared.mem .epoch) (s.shared.mem .configGeneration) (s.progress b)
      seq (s.shared.mem .configGeneration) (.copying (state .configGeneration) seq false) := by
    rw [hmarking]
    exact .mark
  refine hinv.of_write hs ?_ hmove.grows ?_ ?_ ?_ (hinv.stage.move ?_ ?_)
  · simp only [progress, hs, hstep, Shared.goto, Function.update_self]
    rw [decide_eq_false (not_not.2 mem_writeOrder_generation)]
  · rw [hmarking]
    rfl
  · rw [hstep]
    exact hinv.mem.storeEpoch
  · simp only [hstep, Shared.goto, Function.update_self, WritesState]
    exact ⟨trivial, List.suffix_rfl⟩
  · rw [hmarking]
    rfl
  · simpa [hstep, Shared.goto, Shared.store] using hmove

/-- A saver copies. -/
lemma progress_copying {state : SharedState} {seq rest} (hs : s.saver b = .writing state)
    (hcall : s.shared.call (.saver b) = .writeCopy state seq rest) :
    s.progress b =
      .copying (state .configGeneration) seq (decide (.configGeneration ∉ rest)) := by
  simp only [progress, hs, hcall]

/-- A saver has copied every field and stores the even epoch. -/
lemma ReloadInv.writeEnd {state : SharedState} {seq} (hinv : ReloadInv e g s)
    (hs : s.saver b = .writing state) (hcall : s.shared.call (.saver b) = .writeCopy state seq []) :
    ReloadInv e g { s with shared := s.shared.step (.step (.saver b)) } := by
  have hcopying := progress_copying hs hcall
  have hload : (s.progress b).loaded := by
    rw [hcopying]
    rfl
  have hstep : s.shared.step (.step (.saver b)) =
      (s.shared.store .epoch (seq + 1)).goto (.saver b) .idle := by
    simp only [Shared.step, Shared.stepCall, hcall]
  have hmove : Progress.Move (s.shared.mem .epoch) (s.shared.mem .configGeneration)
      (s.progress b) (seq + 1) (s.shared.mem .configGeneration)
      (.finished (state .configGeneration)) := by
    rw [hcopying, decide_eq_true List.not_mem_nil]
    exact .finish
  refine hinv.of_write hs ?_ hmove.grows ?_ ?_ ?_ (hinv.stage.move hload ?_)
  · simp only [progress, hs, hstep, Shared.goto, Function.update_self]
  · rw [hcopying]
    rfl
  · rw [hstep]
    exact hinv.mem.storeEpoch
  · simp only [hstep, Shared.goto, Function.update_self, WritesState]
  · simpa [hstep, Shared.goto, Shared.store] using hmove

/-- A saver copies a field: the generation is published, and any other field is not looked at. -/
lemma ReloadInv.writeField {state : SharedState} {seq f rest} (hinv : ReloadInv e g s)
    (hs : s.saver b = .writing state) (hvalid : state.IsValid) (hrest : f :: rest <:+ writeOrder)
    (hcall : s.shared.call (.saver b) = .writeCopy state seq (f :: rest)) :
    ReloadInv e g { s with shared := s.shared.step (.step (.saver b)) } := by
  have hcopying := progress_copying hs hcall
  have hload : (s.progress b).loaded := by
    rw [hcopying]
    rfl
  have hstep : s.shared.step (.step (.saver b)) =
      (s.shared.store f (state f)).goto (.saver b) (.writeCopy state seq rest) := by
    simp only [Shared.step, Shared.stepCall, hcall]
  have hrest' : rest <:+ writeOrder := (List.suffix_cons f rest).trans hrest
  have hafter : progress { s with shared := s.shared.step (.step (.saver b)) } b =
      .copying (state .configGeneration) seq (decide (.configGeneration ∉ rest)) := by
    simp only [progress, hs, hstep, Shared.goto, Function.update_self]
  have hwrites : WritesState state ((s.shared.step (.step (.saver b))).call (.saver b)) := by
    simp only [hstep, Shared.goto, Function.update_self, WritesState]
    exact ⟨trivial, hrest'⟩
  have hmem : (s.shared.step (.step (.saver b))).mem.IsValid := by
    rw [hstep]
    exact hinv.mem.store hvalid
  have hfield : f ≠ .epoch := mem_writeOrder.1 (hrest.subset (List.mem_cons_self ..))
  by_cases hf : f = .configGeneration
  · subst hf
    have hnodup : .configGeneration ∉ rest :=
      (List.nodup_cons.1 (hrest.sublist.nodup writeOrder_nodup)).1
    have hmove : Progress.Move (s.shared.mem .epoch) (s.shared.mem .configGeneration)
        (s.progress b) (s.shared.mem .epoch) (state .configGeneration)
        (.copying (state .configGeneration) seq true) := by
      rw [hcopying, decide_eq_false (not_not.2 (List.mem_cons_self ..))]
      exact .store
    refine hinv.of_write hs ?_ hmove.grows ?_ hmem hwrites (hinv.stage.move hload ?_)
    · rw [hafter, decide_eq_true hnodup]
    · rw [hcopying]
      rfl
    · simpa [hstep, Shared.goto, Shared.store] using hmove
  · have hsame : s.progress b =
        .copying (state .configGeneration) seq (decide (.configGeneration ∉ rest)) := by
      rw [hcopying]
      simp [Ne.symm hf]
    refine hinv.of_write hs hafter ?_ ?_ hmem hwrites ?_
    · rw [hsame]
      exact Progress.Grows.refl
    · rw [hsame]
    · rw [← hsame, Function.update_eq_self]
      simp only [hstep, Shared.goto, Shared.store]
      rw [Function.update_of_ne (Ne.symm hfield), Function.update_of_ne (Ne.symm hf)]
      exact hinv.stage

/-- A saver is in its `Write`. -/
lemma ReloadInv.writing {state : SharedState} (hinv : ReloadInv e g s) (he : Seqlock.odd e = false)
    (hs : s.saver b = .writing state) (ok : LoadsEven s.shared (.step (.saver b))) :
    ReloadInv e g { s with shared := s.shared.step (.step (.saver b)) } := by
  have hsaver := hinv.saver b
  simp only [SaverInv, hs] at hsaver
  obtain ⟨hvalid, hwrites⟩ := hsaver
  cases hcall : s.shared.call (.saver b) with
  | idle =>
    have hstay : s.shared.step (.step (.saver b)) = s.shared := by
      simp only [Shared.step, Shared.stepCall, hcall]
    rw [hstay]
    exact hinv
  | writeLoad st =>
    rw [hcall] at hwrites
    obtain rfl : st = state := hwrites
    exact hinv.writeLoad he hs hcall (ok st hcall)
  | writeMark st seq =>
    rw [hcall] at hwrites
    obtain rfl : st = state := hwrites
    exact hinv.writeMark hs hcall
  | writeCopy st seq rest =>
    rw [hcall] at hwrites
    obtain ⟨rfl, hrest⟩ := hwrites
    cases rest with
    | nil => exact hinv.writeEnd hs hcall
    | cons f rest => exact hinv.writeField hs hvalid hrest hcall
  | _ =>
    rw [hcall] at hwrites
    cases hwrites

/-- A saver takes its next step. -/
lemma ReloadInv.stepSaver {change : Bool → ConfigChange} (hinv : ReloadInv e g s)
    (he : Seqlock.odd e = false) (ok : LoadsEven s.shared (.step (.saver b))) :
    ReloadInv e g (s.stepSaver change b) := by
  rw [ConfigReload.stepSaver]
  cases hs : s.saver b with
  | saving => exact hinv.saving hs
  | saved => exact hinv.saved hs
  | reading =>
    dsimp only
    by_cases hreturned : s.returned (.saver b)
    · have hidle := returned_iff.1 hreturned
      rw [if_pos hreturned]
      by_cases hvalid : (s.shared.result (.saver b)).IsValid
      · rw [if_pos hvalid]
        exact hinv.beginWrite hs hidle rfl hvalid
      · rw [if_neg hvalid]
        exact hinv.skip hs hidle hvalid
    · rw [if_neg hreturned]
      exact hinv.reading he hs fun hidle => hreturned (returned_iff.2 hidle)
  | writing state => exact hinv.writing he hs ok
  | skipped => exact hinv

/-- A `Write` of a saver loads the epoch only when it is even. -/
def SaversLoadEven (s : ConfigReload) : ReloadEvent → Prop
  | .saver b => LoadsEven s.shared (.step (.saver b))
  | _ => True

/-- Every event keeps the invariant. -/
lemma ReloadInv.step {change : Bool → ConfigChange} {ev : ReloadEvent} (hinv : ReloadInv e g s)
    (he : Seqlock.odd e = false) (ok : s.SaversLoadEven ev) : ReloadInv e g (s.step change ev) := by
  cases ev with
  | saver b => exact hinv.stepSaver he ok
  | quickSync =>
    simp only [ConfigReload.step]
    split
    · next htick => exact hinv.quickSync htick
    · exact hinv
  | tickPoll =>
    simp only [ConfigReload.step]
    split
    · next htick _ => exact hinv.tickPoll htick
    · exact hinv
  | deferReload => exact hinv.deferReload
  | engine => exact hinv.stepEngine he

/-- Before any save. -/
lemma ReloadInv.start {first : SharedState} {lastEpoch : BitVec 32} {lastGeneration : BitVec 8}
    {pending : Bool} (hfirst : first.IsValid)
    (hepoch : lastEpoch ≠ first .epoch + 1 + 1 ∧ lastEpoch ≠ first .epoch + 1 + 1 + 1 + 1)
    (hgen : lastGeneration ≠ first .configGeneration + 1 ∧
      lastGeneration ≠ first .configGeneration + 1 + 1) :
    ReloadInv (first .epoch) (first .configGeneration)
      (init first lastEpoch lastGeneration pending) where
  mem := hfirst
  saver _ := rfl
  stage := .none (fun _ => rfl) rfl rfl
  gens _ _ h := by cases h
  toml _ := .inr rfl
  config _ h := by cases h
  engine := ⟨rfl, .inr ⟨.inl hgen, .inl hepoch⟩⟩

end

end ConfigReload

end NextKey
