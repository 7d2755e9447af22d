import NextKey.Ipc.ReloadInvariant

/-!
# No lost reload

What loses a reload is an overlap of two calls of `Write` that leaves the epoch odd, for then no `Read`
succeeds (`reload_lost`). As long as each `Write` loads an even epoch, the config in force after a
whole tick has both saves (`reload_of_loadsEven`).
-/

namespace NextKey

namespace ConfigReload

/-- The shared state has an epoch and a generation that the engine has not seen. -/
structure News (s : ConfigReload) : Prop where
  epoch : s.shared.mem .epoch ≠ s.lastEpoch
  generation : s.shared.mem .configGeneration ≠ s.lastConfigGeneration

/-- Both savers are done and have left the shared state `mem`. -/
structure AfterSaves (mem : SharedState) (s : ConfigReload) : Prop where
  quiet : (s.shared.call .engine).isQuiet
  done : ∀ b, s.SaverDone b
  toml : Both s.toml
  mem : s.shared.mem = mem

/-- How many steps the engine takes to have both saves in force. -/
inductive Remaining (s : ConfigReload) : ℕ → Prop where
  | fastMagic (htick : s.tick = .fastEpoch) (hcall : s.shared.call .engine = .epochMagic)
    (hnews : s.News) : Remaining s (readOrder.length + 13)
  | fastLoad (htick : s.tick = .fastEpoch) (hcall : s.shared.call .engine = .epochLoad)
    (hnews : s.News) : Remaining s (readOrder.length + 12)
  | fastSeen (htick : s.tick = .fastEpoch) (hcall : s.shared.call .engine = .idle)
    (hseen : s.shared.epochSeen .engine = s.shared.mem .epoch) (hnews : s.News) :
    Remaining s (readOrder.length + 11)
  | slowMagic (htick : s.tick = .slowEpoch) (hcall : s.shared.call .engine = .epochMagic)
    (hnews : s.News) : Remaining s (readOrder.length + 10)
  | slowLoad (htick : s.tick = .slowEpoch) (hcall : s.shared.call .engine = .epochLoad)
    (hnews : s.News) : Remaining s (readOrder.length + 9)
  | slowSeen (htick : s.tick = .slowEpoch) (hcall : s.shared.call .engine = .idle)
    (hseen : s.shared.epochSeen .engine = s.shared.mem .epoch) (hnews : s.News) :
    Remaining s (readOrder.length + 8)
  | readMagic (htick : s.tick = .reading s.lastEpoch) (hcall : s.shared.call .engine = .readMagic)
    (hnews : s.News) : Remaining s (readOrder.length + 7)
  | readEpoch (i state) (htick : s.tick = .reading s.lastEpoch)
    (hcall : s.shared.call .engine = .readEpoch i state) (hnews : s.News) :
    Remaining s (readOrder.length + 6)
  | readCopy (i state rest) (htick : s.tick = .reading s.lastEpoch)
    (hcall : s.shared.call .engine = .readCopy i (s.shared.mem .epoch) state rest)
    (hcopied : ∀ f ∉ rest, state f = s.shared.mem f) (hnews : s.News) :
    Remaining s (rest.length + 5)
  | readDone (htick : s.tick = .reading s.lastEpoch) (hcall : s.shared.call .engine = .idle)
    (hresult : s.shared.result .engine = s.shared.mem) (hnews : s.News) : Remaining s 4
  | claim (htick : s.tick = .claim s.lastEpoch s.shared.mem) (hcall : s.shared.call .engine = .idle)
    (hnews : s.News) : Remaining s 3
  | checking (htick : s.tick = .checking s.shared.mem) (hcall : s.shared.call .engine = .idle)
    (hgeneration : s.shared.mem .configGeneration ≠ s.lastConfigGeneration) : Remaining s 2
  | reloading (htick : s.tick = .reloading) (hcall : s.shared.call .engine = .idle) : Remaining s 1
  | reloaded (hconfig : Both s.config) : Remaining s 0

section
variable {change : Bool → ConfigChange} {s : ConfigReload} {ev : ReloadEvent} {mem : SharedState}

/-- The engine goes on in its call. -/
lemma step_call {c : Call} (hcall : s.shared.call .engine = c) (hc : c ≠ .idle) :
    s.step change .engine = { s with shared := s.shared.stepCall .engine } := by
  rw [ConfigReload.step, stepEngine, if_neg]
  · rfl
  · rw [returned_iff, hcall]
    exact hc

/-- Without a call the engine goes on in its tick. -/
lemma step_advance (hcall : s.shared.call .engine = .idle) : s.step change .engine = s.advance := by
  rw [ConfigReload.step, stepEngine, if_pos (returned_iff.2 hcall)]

/-- A process is where it goes. -/
lemma goto_call {s : Shared ConfigProcess} {p : ConfigProcess} {c : Call} : (s.goto p c).call p = c :=
  Function.update_self ..

/-- The engine loads the epoch. -/
lemma stepCall_epochMagic (hmem : s.shared.mem.IsValid) (hcall : s.shared.call .engine = .epochMagic) :
    s.shared.stepCall .engine = s.shared.goto .engine .epochLoad := by
  simp only [Shared.stepCall, hcall, if_pos hmem.1]

/-- The engine loads the epoch. -/
lemma stepCall_epochLoad (hcall : s.shared.call .engine = .epochLoad) :
    s.shared.stepCall .engine =
      { s.shared.goto .engine .idle with
        epochSeen := Function.update s.shared.epochSeen .engine (s.shared.mem .epoch) } := by
  simp only [Shared.stepCall, hcall]

/-- The engine has loaded an epoch that it has not seen. -/
lemma News.not_upToDate (h : s.News) (hseen : s.shared.epochSeen .engine = s.shared.mem .epoch) :
    ¬s.upToDate := by
  rintro ⟨hlast, -⟩
  exact h.epoch (hseen.symm.trans hlast)

/-- The engine takes a step of its tick. -/
lemma Remaining.step {m : ℕ} (h : Remaining s m) (hm : m ≠ 0) (htoml : Both s.toml)
    (hvalid : s.shared.mem.IsValid) (heven : Seqlock.odd (s.shared.mem .epoch) = false) :
    Remaining (s.step change .engine) (m - 1) := by
  cases h with
  | fastMagic htick hcall hnews =>
    rw [step_call hcall (by simp), stepCall_epochMagic hvalid hcall]
    exact .fastLoad htick goto_call ⟨hnews.epoch, hnews.generation⟩
  | fastLoad htick hcall hnews =>
    rw [step_call hcall (by simp), stepCall_epochLoad hcall]
    refine .fastSeen htick ?_ ?_ ⟨hnews.epoch, hnews.generation⟩
    · simp only [Shared.goto, Function.update_self]
    · simp only [Shared.goto, Function.update_self]
  | fastSeen htick hcall hseen hnews =>
    rw [step_advance hcall]
    simp only [advance, htick, if_neg (hnews.not_upToDate hseen)]
    have hmem : (s.shared.step (.ReadEpoch .engine)).mem = s.shared.mem := by
      simp only [Shared.step, Shared.start, hcall, Shared.goto]
    refine .slowMagic rfl (begin_call hcall) ⟨?_, ?_⟩
    · rw [hmem]
      exact hnews.epoch
    · rw [hmem]
      exact hnews.generation
  | slowMagic htick hcall hnews =>
    rw [step_call hcall (by simp), stepCall_epochMagic hvalid hcall]
    exact .slowLoad htick goto_call ⟨hnews.epoch, hnews.generation⟩
  | slowLoad htick hcall hnews =>
    rw [step_call hcall (by simp), stepCall_epochLoad hcall]
    refine .slowSeen htick ?_ ?_ ⟨hnews.epoch, hnews.generation⟩
    · simp only [Shared.goto, Function.update_self]
    · simp only [Shared.goto, Function.update_self]
  | slowSeen htick hcall hseen hnews =>
    rw [step_advance hcall]
    simp only [advance, htick, if_neg (hnews.not_upToDate hseen)]
    have hmem : (s.shared.step (.Read .engine)).mem = s.shared.mem := by
      simp only [Shared.step, Shared.start, hcall, Shared.goto]
    refine .readMagic rfl (begin_call hcall) ⟨?_, ?_⟩
    · rw [hmem]
      exact hnews.epoch
    · rw [hmem]
      exact hnews.generation
  | readMagic htick hcall hnews =>
    rw [step_call hcall (by simp)]
    simp only [Shared.stepCall, hcall, if_pos hvalid.1]
    exact .readEpoch 0 .zero htick goto_call ⟨hnews.epoch, hnews.generation⟩
  | readEpoch i state htick hcall hnews =>
    rw [step_call hcall (by simp)]
    simp only [Shared.stepCall, hcall]
    exact .readCopy i state readOrder htick goto_call
      (fun f hf => absurd (mem_readOrder f) hf) ⟨hnews.epoch, hnews.generation⟩
  | readCopy i state rest htick hcall hcopied hnews =>
    rw [step_call hcall (by simp)]
    cases rest with
    | cons f rest =>
      simp only [Shared.stepCall, hcall]
      refine .readCopy i _ rest htick goto_call (fun k => ?_)
        ⟨hnews.epoch, hnews.generation⟩
      exact @copied s.shared.mem state f k rest (· = s.shared.mem k) (hcopied k) rfl
    | nil =>
      have hdone : s.shared.stepCall .engine = s.shared.finish .engine s.shared.mem := by
        have hstate : state = s.shared.mem := funext fun f => hcopied f List.not_mem_nil
        simp only [Shared.stepCall, hcall, heven, and_self, if_true, hstate]
      rw [hdone]
      refine .readDone htick ?_ ?_ ⟨hnews.epoch, hnews.generation⟩
      · simp only [Shared.finish, Function.update_self]
      · simp only [Shared.finish, Function.update_self]
  | readDone htick hcall hresult hnews =>
    rw [step_advance hcall]
    simp only [advance, htick, hresult, if_pos hvalid]
    exact .claim rfl hcall ⟨hnews.epoch, hnews.generation⟩
  | claim htick hcall hnews =>
    rw [step_advance hcall]
    simp only [advance, htick, if_pos]
    exact .checking rfl hcall hnews.generation
  | checking htick hcall hgeneration =>
    rw [step_advance hcall]
    simp only [advance, htick, if_neg hgeneration]
    exact .reloading rfl hcall
  | reloading htick hcall =>
    rw [step_advance hcall]
    simp only [advance, htick]
    exact .reloaded htoml
  | reloaded => exact (hm rfl).elim

variable {s' : ConfigReload}

/-- A saver that is done stays as it is. -/
lemma SaverDone.stepSaver {b : Bool} (h : s.SaverDone b) : s.stepSaver change b = s := by
  rw [SaverDone] at h
  rw [ConfigReload.stepSaver]
  cases hs : s.saver b with
  | writing state =>
    rw [hs] at h
    have hstay : s.shared.step (.step (.saver b)) = s.shared := by
      simp only [Shared.step, Shared.stepCall, returned_iff.1 h]
    dsimp only
    rw [hstay]
  | skipped => rfl
  | _ =>
    rw [hs] at h
    cases h

/-- The engine moves on and stores nothing. -/
lemma AfterSaves.of_quiet {ev : SharedEvent ConfigProcess} (h : s.AfterSaves mem)
    (hprocess : ev.process = .engine) (hquiet : ev.isQuiet) (hshared : s'.shared = s.shared.step ev)
    (hsaver : s'.saver = s.saver) (htoml : s'.toml = s.toml) : s'.AfterSaves mem := by
  have hsame := sameSavers_of_quiet hprocess h.quiet hquiet hshared hsaver htoml
  have hcall := h.quiet
  rw [← hprocess] at hcall
  obtain ⟨-, c, state, hc, hstep, -⟩ := step_of_quiet hcall hquiet
  refine ⟨?_, fun b => ?_, ?_, ?_⟩
  · rw [hshared, hstep, hprocess, Function.update_self]
    exact hc
  · have hdone := h.done b
    simp only [SaverDone, returned, hsame.saver, hsame.call] at hdone ⊢
    exact hdone
  · rw [htoml]
    exact h.toml
  · rw [hsame.mem]
    exact h.mem

/-- Nothing shared has changed. -/
lemma AfterSaves.of_shared (h : s.AfterSaves mem) (hshared : s'.shared = s.shared)
    (hsaver : s'.saver = s.saver) (htoml : s'.toml = s.toml) : s'.AfterSaves mem := by
  refine ⟨?_, fun b => ?_, ?_, ?_⟩
  · rw [hshared]
    exact h.quiet
  · have hdone := h.done b
    simp only [SaverDone, returned, hsaver, hshared] at hdone ⊢
    exact hdone
  · rw [htoml]
    exact h.toml
  · rw [hshared]
    exact h.mem

/-- The engine goes on after the saves. -/
lemma AfterSaves.advance (h : s.AfterSaves mem) : s.advance.AfterSaves mem := by
  have hread : ∀ s' : ConfigReload, s'.shared = s.shared.step (.Read .engine) → s'.saver = s.saver →
      s'.toml = s.toml → s'.AfterSaves mem := fun _ => h.of_quiet rfl rfl
  have hload : ∀ s' : ConfigReload, s'.shared = s.shared.step (.ReadEpoch .engine) →
      s'.saver = s.saver → s'.toml = s.toml → s'.AfterSaves mem := fun _ => h.of_quiet rfl rfl
  simp only [ConfigReload.advance]
  cases s.tick with
  | idle => exact h
  | reloading => exact h.of_shared rfl rfl rfl
  | fastEpoch =>
    dsimp only
    split
    · exact h.of_shared rfl rfl rfl
    · exact hload _ rfl rfl rfl
  | slowEpoch =>
    dsimp only
    split
    · exact h.of_shared rfl rfl rfl
    · exact hread _ rfl rfl rfl
  | _ =>
    dsimp only
    split
    · exact h.of_shared rfl rfl rfl
    · exact h.of_shared rfl rfl rfl

/-- Every event keeps the shared state as the savers left it. -/
lemma AfterSaves.step (h : s.AfterSaves mem) : (s.step change ev).AfterSaves mem := by
  cases ev with
  | saver b =>
    rw [ConfigReload.step, (h.done b).stepSaver]
    exact h
  | quickSync =>
    simp only [ConfigReload.step]
    split
    · exact @of_quiet s mem _ (.ReadEpoch .engine) h rfl rfl rfl rfl rfl
    · exact h
  | tickPoll =>
    simp only [ConfigReload.step]
    split
    · exact @of_quiet s mem _ (.Read .engine) h rfl rfl rfl rfl rfl
    · exact h
  | deferReload => exact h.of_shared rfl rfl rfl
  | engine =>
    simp only [ConfigReload.step, stepEngine]
    split
    · exact h.advance
    · exact @of_quiet s mem _ (.step .engine) h rfl rfl rfl rfl rfl

/-- What remains to be done keeps the tick going. -/
lemma Remaining.tick_ne {m : ℕ} (h : Remaining s m) (hm : m ≠ 0) : s.tick ≠ .idle := by
  intro hidle
  cases h with
  | reloaded => exact hm rfl
  | _ =>
    rw [hidle] at *
    contradiction

/-- Another reload has both saves too. -/
lemma both_config (h : s.AfterSaves mem) (hconfig : Both s.config) :
    Both (s.step change ev).config := by
  cases ev with
  | saver b => rwa [ConfigReload.step, (h.done b).stepSaver]
  | quickSync | tickPoll =>
    simp only [ConfigReload.step]
    split <;> exact hconfig
  | deferReload => exact hconfig
  | engine =>
    simp only [ConfigReload.step, stepEngine, advance]
    split
    · cases s.tick with
      | reloading => exact h.toml
      | idle => exact hconfig
      | _ =>
        dsimp only
        split <;> exact hconfig
    · exact hconfig

/-- News stays news when a reload is put off. -/
lemma News.deferReload (h : s.News) : News { s with pendingConfigReload := true } :=
  ⟨h.epoch, h.generation⟩

/-- A reload that is put off does not count. -/
lemma Remaining.deferReload {m : ℕ} (h : Remaining s m) :
    Remaining { s with pendingConfigReload := true } m := by
  cases h with
  | fastMagic htick hcall hnews => exact .fastMagic htick hcall hnews.deferReload
  | fastLoad htick hcall hnews => exact .fastLoad htick hcall hnews.deferReload
  | fastSeen htick hcall hseen hnews => exact .fastSeen htick hcall hseen hnews.deferReload
  | slowMagic htick hcall hnews => exact .slowMagic htick hcall hnews.deferReload
  | slowLoad htick hcall hnews => exact .slowLoad htick hcall hnews.deferReload
  | slowSeen htick hcall hseen hnews => exact .slowSeen htick hcall hseen hnews.deferReload
  | readMagic htick hcall hnews => exact .readMagic htick hcall hnews.deferReload
  | readEpoch i state htick hcall hnews => exact .readEpoch i state htick hcall hnews.deferReload
  | readCopy i state rest htick hcall hcopied hnews =>
    exact .readCopy i state rest htick hcall hcopied hnews.deferReload
  | readDone htick hcall hresult hnews => exact .readDone htick hcall hresult hnews.deferReload
  | claim htick hcall hnews => exact .claim htick hcall hnews.deferReload
  | checking htick hcall hgeneration => exact .checking htick hcall hgeneration
  | reloading htick hcall => exact .reloading htick hcall
  | reloaded hconfig => exact .reloaded hconfig

/-- An event that is no step of the engine leaves the tick where it is. -/
lemma Remaining.other {m : ℕ} (h : Remaining s m) (hm : m ≠ 0) (hsaves : s.AfterSaves mem)
    (hev : ev ≠ .engine) : Remaining (s.step change ev) m := by
  have htick := h.tick_ne hm
  cases ev with
  | saver b =>
    rw [ConfigReload.step, (hsaves.done b).stepSaver]
    exact h
  | quickSync =>
    cases ht : s.tick with
    | idle => exact (htick ht).elim
    | _ =>
      simp only [ConfigReload.step, ht]
      exact h
  | tickPoll =>
    cases ht : s.tick with
    | idle => exact (htick ht).elim
    | _ =>
      simp only [ConfigReload.step, ht]
      exact h
  | deferReload => exact h.deferReload
  | engine => exact (hev rfl).elim

/-- When nothing remains, both changes are in. -/
lemma Remaining.both {m : ℕ} (h : Remaining s m) (hm : m = 0) : Both s.config := by
  cases h with
  | reloaded hconfig => exact hconfig
  | _ => cases hm

/-- Both saves stay in force. -/
lemma run_both {events : List ReloadEvent} (hsaves : s.AfterSaves mem) (hconfig : Both s.config) :
    Both (reloadRun change s events).config := by
  induction events generalizing s with
  | nil => exact hconfig
  | cons ev events ih => exact ih hsaves.step (both_config hsaves hconfig)

/-- After enough steps of the engine both saves are in force. -/
lemma Remaining.run {m : ℕ} {events : List ReloadEvent} (h : Remaining s m)
    (hsaves : s.AfterSaves mem) (hvalid : mem.IsValid) (heven : Seqlock.odd (mem .epoch) = false)
    (hevents : m ≤ events.count .engine) : Both (reloadRun change s events).config := by
  induction events generalizing s m with
  | nil => exact h.both (Nat.le_zero.1 hevents)
  | cons ev events ih =>
    by_cases hm : m = 0
    · exact run_both hsaves (h.both hm)
    · by_cases hev : ev = .engine
      · subst hev
        rw [List.count_cons_self] at hevents
        have hnext : Remaining (s.step change .engine) (m - 1) := by
          refine h.step hm hsaves.toml ?_ ?_
          · rwa [hsaves.mem]
          · rwa [hsaves.mem]
        exact ih hnext hsaves.step (by omega)
      · rw [List.count_cons_of_ne hev] at hevents
        exact ih (h.other hm hsaves hev) hsaves.step hevents

variable {e : BitVec 32} {g : BitVec 8} {b : Bool}

/-- A saver that is done is finished, or skipped its write after the other had begun. -/
lemma ReloadInv.finished_or_skipped (hinv : ReloadInv e g s) (hdone : s.SaverDone b) :
    (s.progress b).isFinished ∨ s.saver b = .skipped ∧ (s.progress !b).marked := by
  have hsaver := hinv.saver b
  rw [SaverDone] at hdone
  rw [SaverInv] at hsaver
  cases hs : s.saver b with
  | writing state =>
    rw [hs] at hdone
    left
    simp only [progress, hs, returned_iff.1 hdone]
    rfl
  | skipped =>
    rw [hs] at hsaver
    exact .inr ⟨rfl, hsaver.2⟩
  | _ =>
    rw [hs] at hdone
    cases hdone

/-- A saver that has skipped its change has published nothing. -/
lemma progress_of_skipped (hs : s.saver b = .skipped) : s.progress b = .before :=
  progress_of_not_writing (by simp [hs])

/-- One of the savers is finished, and the other finished or skipped. -/
lemma ReloadInv.exists_finished (hinv : ReloadInv e g s) (hdone : ∀ b, s.SaverDone b) :
    ∃ a, (s.progress a).isFinished ∧ ((s.progress !a).isFinished ∨ s.saver (!a) = .skipped) := by
  obtain hfinished | ⟨hskipped, hmarked⟩ := hinv.finished_or_skipped (hdone true)
  · exact ⟨true, hfinished, (hinv.finished_or_skipped (hdone false)).imp_right And.left⟩
  · obtain hfinished | ⟨hskipped', -⟩ := hinv.finished_or_skipped (hdone false)
    · exact ⟨false, hfinished, .inr hskipped⟩
    · have hbefore : s.progress (!true) = .before := progress_of_skipped hskipped'
      rw [hbefore] at hmarked
      cases hmarked

/-- When both savers are done, the saves are over. -/
lemma ReloadInv.afterSaves (hinv : ReloadInv e g s) (hdone : ∀ b, s.SaverDone b)
    (hidle : s.shared.call .engine = .idle) : s.AfterSaves s.shared.mem where
  quiet := by
    rw [hidle]
    rfl
  done := hdone
  toml b := by
    refine (hinv.toml b).resolve_right fun hsaving => ?_
    have hb := hdone b
    rw [SaverDone, hsaving] at hb
    exact hb
  mem := rfl

/-- When both savers are done, the epoch is even. -/
lemma ReloadInv.even_of_done (hinv : ReloadInv e g s) (he : Seqlock.odd e = false)
    (hdone : ∀ b, s.SaverDone b) : Seqlock.odd (s.shared.mem .epoch) = false := by
  refine hinv.stage.even_of_quiet he fun b => ?_
  obtain hfinished | ⟨hskipped, -⟩ := hinv.finished_or_skipped (hdone b)
  · obtain ⟨x, hx⟩ := Progress.isFinished_iff.1 hfinished
    rw [hx]
    rfl
  · rw [progress_of_skipped hskipped]
    rfl

/-- A saver that was behind and is finished is ahead. -/
lemma OneBehind.ahead (h : s.OneBehind e g) (hall : ∀ b, (s.progress b).isFinished) :
    Ahead g s.progress := by
  obtain ⟨a, -, hbehind⟩ := h
  have hmarked := Progress.marked_of_stored (Progress.stored_of_finished (hall !a))
  refine ⟨!a, hmarked, ?_⟩
  rw [Behind] at hbehind
  rw [progress] at hmarked ⊢
  cases hs : s.saver !a with
  | writing state =>
    rw [hs] at hbehind
    dsimp only at hbehind ⊢
    rw [← hbehind]
    cases s.shared.call (.saver !a) <;> rfl
  | _ =>
    rw [hs] at hmarked
    cases hmarked

/-- What the savers leave is news to an engine that does not have both saves. -/
lemma ReloadInv.news (hinv : ReloadInv e g s) (he : Seqlock.odd e = false)
    (hdone : ∀ b, s.SaverDone b) (hgen : s.StaleGen e g s.lastConfigGeneration)
    (hepoch : s.StaleEpoch e g s.lastEpoch) : s.News := by
  obtain ⟨a, ha, hother | hskipped⟩ := hinv.exists_finished hdone
  · have hall : ∀ b, (s.progress b).isFinished := by
      intro b
      obtain rfl | rfl := eq_or_eq_not a b
      · exact ha
      · exact hother
    refine ⟨fun h => ?_, fun h => ?_⟩
    · have heven := hinv.even_of_done he hdone
      have hne := hinv.stage.epoch_ne (Progress.marked_of_stored (Progress.stored_of_finished ha))
      rw [← h] at hepoch
      obtain ⟨hnext, hlast⟩ | ⟨hnext, hbehind⟩ := hepoch
      · obtain h | h | h := hinv.stage.even he heven
        · exact hne h
        · exact hnext h
        · exact hlast h
      · exact hinv.stage.epoch_of_ahead hinv.gens (hbehind.ahead hall) hnext
    · rw [← h] at hgen
      exact hgen.not_settled (hinv.stage.settled hinv.gens hall)
  · have hother : (s.progress !!a).isFinished := by rwa [Bool.not_not]
    obtain ⟨hmem, hmem'⟩ :=
      hinv.stage.after_other hinv.gens (progress_of_skipped hskipped) hother
    have hnone : ¬s.OneBehind e g := by
      rintro ⟨c, hc, hbehind⟩
      obtain rfl | rfl := eq_or_eq_not a c
      · rw [Behind, hskipped] at hbehind
        exact hbehind
      · rw [progress_of_skipped hskipped] at hc
        cases hc
    refine ⟨fun h => ?_, fun h => ?_⟩
    · rw [← h] at hepoch
      obtain ⟨hne, -⟩ | ⟨-, hbehind⟩ := hepoch
      · exact hne hmem
      · exact hnone hbehind
    · rw [← h] at hgen
      obtain ⟨hne, -⟩ | ⟨-, hbehind⟩ := hgen
      · exact hne hmem'
      · exact hnone hbehind

/-- The engine begins a tick after the saves. -/
lemma ReloadInv.begin_tick (hinv : ReloadInv e g s) (he : Seqlock.odd e = false)
    (hdone : ∀ b, s.SaverDone b) (htick : s.tick = .idle) :
    s.AfterSaves s.shared.mem ∧
      (Both s.config ∨ Remaining (s.step change .quickSync) (readOrder.length + 13)) := by
  have hengine := hinv.engine
  rw [EngineInv, htick] at hengine
  obtain ⟨hidle, hcurrent⟩ := hengine
  refine ⟨hinv.afterSaves hdone hidle, hcurrent.imp_right ?_⟩
  rintro ⟨hgen, hepoch⟩
  have hnews := hinv.news he hdone hgen hepoch
  simp only [ConfigReload.step, htick]
  have hmem : (s.shared.step (.ReadEpoch .engine)).mem = s.shared.mem := by
    simp only [Shared.step, Shared.start, hidle, Shared.goto]
  refine .fastMagic rfl (begin_call hidle) ⟨?_, ?_⟩
  · rw [hmem]
    exact hnews.epoch
  · rw [hmem]
    exact hnews.generation

end

end ConfigReload

open ConfigReload

/-- While each `Write` of the savers loads an even epoch, no reload is lost: once both savers are done
    and the idle engine has ticked again, the config in force has both saves. The engine starts with
    last having seen no epoch and no generation that the savers are about to store. -/
theorem reload_of_loadsEven {change : Bool → ConfigChange} {first : SharedState}
    {lastEpoch : BitVec 32} {lastConfigGeneration : BitVec 8} {pending : Bool}
    {events tick : List ReloadEvent} (hfirst : first.IsValid)
    (heven : Seqlock.odd (first .epoch) = false)
    (hepoch : lastEpoch ≠ first .epoch + 1 + 1 ∧ lastEpoch ≠ first .epoch + 1 + 1 + 1 + 1)
    (hgen : lastConfigGeneration ≠ first .configGeneration + 1 ∧
      lastConfigGeneration ≠ first .configGeneration + 1 + 1)
    (h : Machine.Guarded (ConfigReload.step change) SaversLoadEven
      (init first lastEpoch lastConfigGeneration pending) events)
    (hdone : ∀ b,
      (reloadRun change (init first lastEpoch lastConfigGeneration pending) events).SaverDone b)
    (hidle : (reloadRun change (init first lastEpoch lastConfigGeneration pending) events).tick = .idle)
    (htick : readOrder.length + 13 ≤ tick.count .engine) (b : Bool) :
    b ∈ (reloadRun change (init first lastEpoch lastConfigGeneration pending)
      (events ++ .quickSync :: tick)).config := by
  have hinv := h.invariant (ReloadInv.start hfirst hepoch hgen) fun hinv ok => hinv.step heven ok
  obtain ⟨hsaves, hboth | hremaining⟩ := @ReloadInv.begin_tick change _ _ _ hinv heven hdone hidle
  · rw [reloadRun, Machine.run_append]
    exact run_both hsaves hboth b
  · rw [reloadRun, Machine.run_append]
    exact hremaining.run hsaves.step hinv.mem (hinv.even_of_done heven hdone) htick b

section
variable {change : Bool → ConfigChange} {s : ConfigReload} {b : Bool} {n : ℕ}

/-- A run in two parts. -/
lemma reloadRun_append {events events' : List ReloadEvent} : reloadRun change s (events ++ events') =
    reloadRun change (reloadRun change s events) events' := Machine.run_append

/-- The steps of a saver in its `Write` are those of the call. -/
lemma run_writing {state : SharedState} (hs : s.saver b = .writing state) :
    reloadRun change s (List.replicate n (.saver b)) =
      { s with shared := Machine.run Shared.step s.shared (List.replicate n (.step (.saver b))) } := by
  induction n generalizing s with
  | zero => rfl
  | succ n ih =>
    have hstep : s.step change (.saver b) = { s with shared := s.shared.step (.step (.saver b)) } := by
      simp only [ConfigReload.step, stepSaver, hs]
    rw [List.replicate_succ, reloadRun, Machine.run_cons, hstep, List.replicate_succ, Machine.run_cons]
    exact ih hs

/-- A saver that writes on meets the guard. -/
lemma guarded_writing {state : SharedState} (hs : s.saver b = .writing state)
    (h : Machine.Guarded Shared.step LoadsEven s.shared (List.replicate n (.step (.saver b)))) :
    Machine.Guarded (ConfigReload.step change) SaversLoadEven s (List.replicate n (.saver b)) := by
  induction n generalizing s with
  | zero => trivial
  | succ n ih =>
    have hstep : s.step change (.saver b) = { s with shared := s.shared.step (.step (.saver b)) } := by
      simp only [ConfigReload.step, stepSaver, hs]
    refine ⟨h.1, ?_⟩
    rw [hstep]
    exact ih hs h.2

/-- The steps of a saver in its `Read` are those of the call. -/
lemma step_reading (hs : s.saver b = .reading) (h : (s.shared.call (.saver b)).isReading) :
    s.step change (.saver b) = { s with shared := s.shared.step (.step (.saver b)) } := by
  have hreturned : ¬s.returned (.saver b) := by
    rw [returned_iff]
    intro hidle
    rw [hidle] at h
    cases h
  simp only [ConfigReload.step, stepSaver, hs, if_neg hreturned]

/-- Only steps of `Read`. -/
def StepsRead (t : Shared ConfigProcess) (ev : SharedEvent ConfigProcess) : Prop :=
  ∀ p, ev = .step p → (t.call p).isReading

/-- A saver that reads on. -/
lemma run_reading (hs : s.saver b = .reading)
    (h : Machine.Guarded Shared.step StepsRead s.shared (List.replicate n (.step (.saver b)))) :
    reloadRun change s (List.replicate n (.saver b)) =
        { s with shared := Machine.run Shared.step s.shared (List.replicate n (.step (.saver b))) } ∧
      Machine.Guarded (ConfigReload.step change) SaversLoadEven s (List.replicate n (.saver b)) := by
  induction n generalizing s with
  | zero => exact ⟨rfl, trivial⟩
  | succ n ih =>
    have hreading := h.1 _ rfl
    have hrest := h.2
    have hstep := @step_reading change s b hs hreading
    have ih' := @ih { s with shared := s.shared.step (.step (.saver b)) } hs hrest
    rw [List.replicate_succ, reloadRun, Machine.run_cons, hstep, List.replicate_succ, Machine.run_cons]
    refine ⟨ih'.1, ?_, ?_⟩
    · intro state hload
      rw [hload] at hreading
      cases hreading
    · rw [hstep]
      exact ih'.2

/-- The first two steps and the last one of a call. -/
lemma replicate_call {α : Type} {a : α} :
    List.replicate (n + 3) a = [a, a] ++ List.replicate n a ++ [a] := by
  rw [List.replicate_succ, List.replicate_succ, List.replicate_succ']
  rfl

/-- A reading, with its steps counted. -/
lemma readCall_eq {p : ConfigProcess} :
    readCall p = .Read p :: List.replicate (readOrder.length + 3) (.step p) := by
  rw [replicate_call]
  rfl

/-- A writing, with its steps counted. -/
lemma writeCall_eq {p : ConfigProcess} {state : SharedState} :
    writeCall p state = .Write p state :: List.replicate (writeOrder.length + 3) (.step p) := by
  rw [replicate_call, writeCall, writeBegin, writeEnd]
  simp only [List.cons_append, List.nil_append]

/-- The steps of a saver up to its `Write`. -/
def saveRead (b : Bool) : List ReloadEvent := List.replicate (readOrder.length + 5) (.saver b)

/-- The steps of a saver from its `Write` on. -/
def saveWrite (b : Bool) : List ReloadEvent := List.replicate (writeOrder.length + 4) (.saver b)

/-- A saver gets to its `Write`. -/
lemma run_saveRead (hs : s.saver b = .saving) (hidle : s.shared.call (.saver b) = .idle)
    (hmem : s.shared.mem.IsValid) (heven : Seqlock.odd (s.shared.mem .epoch) = false) :
    Machine.Guarded (ConfigReload.step change) SaversLoadEven s (saveRead b) ∧
      ∃ shared : Shared ConfigProcess, shared.mem = s.shared.mem ∧ shared.call = s.shared.call ∧
        shared.result = Function.update s.shared.result (.saver b) s.shared.mem ∧
          reloadRun change s (saveRead b) =
            { s with
              shared := shared
              saver := Function.update s.saver b .reading
              toml := b :: s.toml } := by
  have hsaving : s.step change (.saver b) =
      { s with toml := b :: s.toml, saver := Function.update s.saver b .saved } := by
    simp only [ConfigReload.step, stepSaver, hs]
  have hsaved : (s.step change (.saver b)).step change (.saver b) =
      { s with
        shared := s.shared.step (.Read (.saver b))
        toml := b :: s.toml
        saver := Function.update s.saver b .reading } := by
    rw [hsaving]
    simp only [ConfigReload.step, stepSaver, Function.update_self, Function.update_idem]
  have hguard : Machine.Guarded Shared.step StepsRead s.shared (readCall (.saver b)) := by
    apply Shared.guarded_readCall hidle hmem.1
    · intro p hp
      cases hp
    · intro t ht p hp
      cases hp
      exact ht
  have hrun := Shared.run_readCall hidle hmem.1 heven
  rw [readCall_eq] at hguard hrun
  rw [Machine.run_cons] at hrun
  have hreading := @run_reading change
    { s with
      shared := s.shared.step (.Read (.saver b))
      toml := b :: s.toml
      saver := Function.update s.saver b .reading } b _ (Function.update_self ..) hguard.2
  rw [hrun] at hreading
  rw [saveRead, List.replicate_succ, List.replicate_succ, reloadRun, Machine.run_cons, Machine.run_cons,
    hsaved]
  refine ⟨⟨?_, ?_, ?_⟩, _, ?_, ?_, ?_, hreading.1⟩
  · intro state hload
    rw [hidle] at hload
    cases hload
  · intro state hload
    rw [hsaving] at hload
    dsimp only at hload
    rw [hidle] at hload
    cases hload
  · rw [hsaved]
    exact hreading.2
  all_goals rfl

/-- A saver writes the shared state. -/
lemma run_saveWrite {state : SharedState} (hs : s.saver b = .reading)
    (hidle : s.shared.call (.saver b) = .idle) (hstate : s.shared.result (.saver b) = state)
    (hvalid : state.IsValid) (heven : Seqlock.odd (s.shared.mem .epoch) = false) :
    Machine.Guarded (ConfigReload.step change) SaversLoadEven s (saveWrite b) ∧
      ∃ shared : Shared ConfigProcess,
        shared.mem = Function.update (copyFields ((change b).edit state) s.shared.mem writeOrder)
          .epoch (s.shared.mem .epoch + 1 + 1) ∧ shared.call = s.shared.call ∧
          reloadRun change s (saveWrite b) =
            { s with
              shared := shared
              saver := Function.update s.saver b (.writing ((change b).edit state)) } := by
  have hwrite : s.step change (.saver b) =
      { s with
        shared := s.shared.step (.Write (.saver b) ((change b).edit state))
        saver := Function.update s.saver b (.writing ((change b).edit state)) } := by
    simp only [ConfigReload.step, stepSaver, hs, if_pos (returned_iff.2 hidle), hstate, if_pos hvalid]
  have hguard : Machine.Guarded Shared.step LoadsEven s.shared
      (writeCall (.saver b) ((change b).edit state)) := by
    apply Shared.guarded_writeCall hidle trivial
    · intro t _ hmem _ _
      rw [hmem]
      exact heven
    · intro t seq ht
      simp [LoadsEven, ht]
    · intro t seq rest ht _
      simp [LoadsEven, ht]
  have hrun := @Shared.run_writeCall _ _ _ _ ((change b).edit state) hidle
  rw [writeCall_eq] at hguard hrun
  rw [Machine.run_cons] at hrun
  have hwriting := @run_writing change
    { s with
      shared := s.shared.step (.Write (.saver b) ((change b).edit state))
      saver := Function.update s.saver b (.writing ((change b).edit state)) } b
    (writeOrder.length + 3) _ (Function.update_self ..)
  have hguarded := @guarded_writing change
    { s with
      shared := s.shared.step (.Write (.saver b) ((change b).edit state))
      saver := Function.update s.saver b (.writing ((change b).edit state)) } b
    (writeOrder.length + 3) _ (Function.update_self ..) hguard.2
  rw [hrun] at hwriting
  rw [saveWrite, List.replicate_succ, reloadRun, Machine.run_cons, hwrite]
  refine ⟨⟨?_, ?_⟩, _, ?_, ?_, hwriting⟩
  · intro st hload
    rw [hidle] at hload
    cases hload
  · rw [hwrite]
    exact hguarded
  all_goals rfl

/-- What was written is valid. -/
lemma isValid_written {state mem : SharedState} {v : BitVec 32} (hstate : state.IsValid) :
    SharedState.IsValid (Function.update (copyFields state mem writeOrder) .epoch v) := by
  have hfield : ∀ f, f ≠ .epoch →
      Function.update (copyFields state mem writeOrder) .epoch v f = state f := by
    intro f hf
    rw [Function.update_of_ne hf, copyFields, if_pos (mem_writeOrder.2 hf)]
  refine ⟨?_, ?_, ?_⟩
  · rw [hfield .magic (by simp)]
    exact hstate.1
  · rw [hfield .structVersion (by simp)]
    exact hstate.2.1
  · rw [hfield .structSize (by simp)]
    exact hstate.2.2

/-- A saver saves while nothing else happens. -/
lemma run_save (hs : s.saver b = .saving) (hidle : s.shared.call (.saver b) = .idle)
    (hmem : s.shared.mem.IsValid) (heven : Seqlock.odd (s.shared.mem .epoch) = false) :
    Machine.Guarded (ConfigReload.step change) SaversLoadEven s (saveRead b ++ saveWrite b) ∧
      ∃ (shared : Shared ConfigProcess) (state : SharedState), shared.call = s.shared.call ∧
        shared.mem.IsValid ∧ Seqlock.odd (shared.mem .epoch) = false ∧
          reloadRun change s (saveRead b ++ saveWrite b) =
            { s with
              shared := shared
              saver := Function.update s.saver b (.writing state)
              toml := b :: s.toml } := by
  obtain ⟨hguard, shared, hmem', hcall, hresult, hread⟩ :=
    @run_saveRead change s b hs hidle hmem heven
  have hwrite := @run_saveWrite change
    { s with
      shared := shared
      saver := Function.update s.saver b .reading
      toml := b :: s.toml } b s.shared.mem (Function.update_self ..) (by simp only [hcall, hidle])
    (by simp only [hresult, Function.update_self]) hmem (by simp only [hmem', heven])
  obtain ⟨hguard', shared', hmem'', hcall', hwrite⟩ := hwrite
  rw [← hread] at hguard'
  refine ⟨Machine.guarded_append.2 ⟨hguard, hguard'⟩, shared',
    (change b).edit s.shared.mem, hcall'.trans hcall, ?_, ?_, ?_⟩
  · rw [hmem'']
    exact isValid_written (edit_isValid hmem)
  · simp only [hmem'', hmem', Function.update_self]
    exact odd_next_next heven
  · rw [reloadRun_append, hread, hwrite]
    simp only [Function.update_idem]

end

/-- The savers one after the other, in a run of `SignalConfigChange` for both. -/
def savesInTurn : List ReloadEvent :=
  (saveRead false ++ saveWrite false) ++ (saveRead true ++ saveWrite true)

/-- The engine takes part in no save. -/
lemma run_savesInTurn {change : Bool → ConfigChange} :
    Machine.Guarded (ConfigReload.step change) SaversLoadEven (init .InitDefaults 0 0 false)
        savesInTurn ∧
      (reloadRun change (init .InitDefaults 0 0 false) savesInTurn).tick = .idle ∧
        ∀ b, (reloadRun change (init .InitDefaults 0 0 false) savesInTurn).SaverDone b := by
  obtain ⟨hguard, shared, state, hcall, hmem, heven, hrun⟩ :=
    @run_save change (init .InitDefaults 0 0 false) false rfl rfl (by decide) rfl
  obtain ⟨hguard', shared', state', hcall', -, -, hrun'⟩ :=
    @run_save change
      (reloadRun change (init .InitDefaults 0 0 false) (saveRead false ++ saveWrite false)) true
      (by rw [hrun]; rfl) (by rw [hrun]; exact congrFun hcall _) (by rw [hrun]; exact hmem)
      (by rw [hrun]; exact heven)
  rw [savesInTurn, Machine.guarded_append, reloadRun_append, hrun', hrun]
  rw [hrun] at hcall'
  refine ⟨⟨hguard, hguard'⟩, rfl, fun b => ?_⟩
  have hidle : shared'.call (.saver b) = .idle := by
    rw [hcall', hcall]
    rfl
  cases b with
  | true | false =>
    show ConfigReload.returned _ _
    rw [returned_iff]
    exact hidle

/-- Two saves in turn and a tick. -/
theorem reload_of_loadsEven_inTurn :
    true ∈ (reloadRun (fun _ => .SignalConfigChange) (init .InitDefaults 0 0 false)
        (savesInTurn ++ .quickSync :: List.replicate (readOrder.length + 13) .engine)).config ∧
      false ∈ (reloadRun (fun _ => .SignalConfigChange) (init .InitDefaults 0 0 false)
        (savesInTurn ++ .quickSync :: List.replicate (readOrder.length + 13) .engine)).config := by
  obtain ⟨hguard, hidle, hdone⟩ := @run_savesInTurn fun _ => .SignalConfigChange
  have hboth := reload_of_loadsEven (by decide) rfl (by decide) (by decide) hguard hdone hidle
    (List.count_replicate_self (a := ReloadEvent.engine) (n := readOrder.length + 13)).ge
  exact ⟨hboth true, hboth false⟩

namespace ConfigReload

/-- Both savers have left an odd epoch, and the engine has no state of theirs. -/
structure Stuck (mem : SharedState) (s : ConfigReload) : Prop where
  saves : s.AfterSaves mem
  config : s.config = []
  engine : match s.tick with
    | .idle => s.shared.call .engine = .idle
    | .fastEpoch | .slowEpoch => True
    | .reading _ | .draining => (s.shared.call .engine).isReading ∨
      s.shared.call .engine = .idle ∧ ¬(s.shared.result .engine).IsValid
    | _ => False

section
variable {change : Bool → ConfigChange} {s : ConfigReload} {ev : ReloadEvent} {mem : SharedState}

/-- A stuck engine stays stuck. -/
lemma Stuck.advance (h : s.Stuck mem) (hidle : s.shared.call .engine = .idle) :
    s.advance.Stuck mem := by
  have hsaves := h.saves.advance
  obtain ⟨-, hconfig, hengine⟩ := h
  obtain ⟨tick, htick⟩ : ∃ tick, s.tick = tick := ⟨_, rfl⟩
  rw [htick] at hengine
  simp only [ConfigReload.advance, htick] at hsaves ⊢
  cases tick with
  | idle => exact ⟨hsaves, hconfig, by rwa [htick]⟩
  | fastEpoch =>
    by_cases hdate : s.upToDate
    · simp only [if_pos hdate] at hsaves ⊢
      exact ⟨hsaves, hconfig, hidle⟩
    · simp only [if_neg hdate] at hsaves ⊢
      exact ⟨hsaves, hconfig, trivial⟩
  | slowEpoch =>
    by_cases hdate : s.upToDate
    · simp only [if_pos hdate] at hsaves ⊢
      exact ⟨hsaves, hconfig, hidle⟩
    · simp only [if_neg hdate] at hsaves ⊢
      refine ⟨hsaves, hconfig, .inl ?_⟩
      have hcall : (s.shared.step (.Read .engine)).call .engine = .readMagic := begin_call hidle
      rw [hcall]
      rfl
  | reading | draining =>
    obtain hreading | ⟨-, hinvalid⟩ := hengine
    · rw [hidle] at hreading
      cases hreading
    · simp only [if_neg hinvalid] at hsaves ⊢
      exact ⟨hsaves, hconfig, hidle⟩
  | _ => cases hengine

/-- A `Read` of the engine does not succeed while the epoch is odd. -/
lemma stuck_read {s : Shared ConfigProcess} (hvalid : s.mem.IsValid)
    (hodd : Seqlock.odd (s.mem .epoch) = true) (hreading : (s.call .engine).isReading) :
    ((s.stepCall .engine).call .engine).isReading ∨ (s.stepCall .engine).call .engine = .idle ∧
      ¬((s.stepCall .engine).result .engine).IsValid := by
  have hstep := readStep hvalid hreading
  rw [Shared.step] at hstep
  generalize s.call .engine = c at hstep
  generalize (s.stepCall .engine).call .engine = c' at hstep ⊢
  generalize (s.stepCall .engine).result .engine = r' at hstep ⊢
  cases hstep with
  | magic | epoch | copy | retry => exact .inl rfl
  | done heven =>
    rw [hodd] at heven
    cases heven
  | fail => exact .inr ⟨rfl, zero_not_isValid⟩

/-- The engine never gets a state while the epoch is odd. -/
lemma Stuck.step (h : s.Stuck mem) (hvalid : mem.IsValid) (hodd : Seqlock.odd (mem .epoch) = true) :
    (s.step change ev).Stuck mem := by
  have hsaves := @AfterSaves.step change s ev mem h.saves
  obtain ⟨hsaves', hconfig, hengine⟩ := h
  cases ev with
  | saver b =>
    rw [ConfigReload.step, (hsaves'.done b).stepSaver]
    exact ⟨hsaves', hconfig, hengine⟩
  | quickSync =>
    simp only [ConfigReload.step] at hsaves ⊢
    split at hsaves
    · exact ⟨hsaves, hconfig, trivial⟩
    · exact ⟨hsaves, hconfig, hengine⟩
  | tickPoll =>
    simp only [ConfigReload.step] at hsaves ⊢
    split at hsaves
    · next htick _ =>
      rw [htick] at hengine
      refine ⟨hsaves, hconfig, .inl ?_⟩
      have hcall : (s.shared.step (.Read .engine)).call .engine = .readMagic := begin_call hengine
      rw [hcall]
      rfl
    · exact ⟨hsaves, hconfig, hengine⟩
  | deferReload => exact ⟨hsaves, hconfig, hengine⟩
  | engine =>
    by_cases hreturned : s.returned .engine
    · have hidle := returned_iff.1 hreturned
      rw [step_advance hidle]
      exact Stuck.advance ⟨hsaves', hconfig, hengine⟩ hidle
    · have hcall : s.shared.call .engine ≠ .idle := fun h => hreturned (returned_iff.2 h)
      rw [step_call rfl hcall] at hsaves ⊢
      refine ⟨hsaves, hconfig, ?_⟩
      dsimp only
      obtain ⟨tick, htick⟩ : ∃ tick, s.tick = tick := ⟨_, rfl⟩
      rw [htick] at hengine ⊢
      cases tick with
      | idle => exact (hcall hengine).elim
      | fastEpoch | slowEpoch => exact trivial
      | reading | draining =>
        obtain hreading | ⟨hidle, -⟩ := hengine
        · exact stuck_read (by rwa [hsaves'.mem]) (by rwa [hsaves'.mem]) hreading
        · exact (hcall hidle).elim
      | _ => cases hengine

/-- The engine has nothing after any number of ticks. -/
lemma Stuck.run {events : List ReloadEvent} (h : s.Stuck mem) (hvalid : mem.IsValid)
    (hodd : Seqlock.odd (mem .epoch) = true) : (reloadRun change s events).config = [] := by
  induction events generalizing s with
  | nil => exact h.config
  | cons ev events ih => exact ih (h.step hvalid hodd)

end

section
variable {change : Bool → ConfigChange} {s : ConfigReload} {b : Bool}

/-- A saver stores its odd epoch, one more than it finds. -/
lemma run_saveMark {state : SharedState} (hs : s.saver b = .reading)
    (hidle : s.shared.call (.saver b) = .idle) (hstate : s.shared.result (.saver b) = state)
    (hvalid : state.IsValid) :
    reloadRun change s (List.replicate 3 (.saver b)) =
      { s with
        shared :=
          { (s.shared.store .epoch (s.shared.mem .epoch + 1)).goto (.saver b)
              (.writeCopy ((change b).edit state) (s.shared.mem .epoch + 1) writeOrder) with
            passed := (change b).edit state :: s.shared.passed }
        saver := Function.update s.saver b (.writing ((change b).edit state)) } := by
  have hwrite : s.step change (.saver b) =
      { s with
        shared := s.shared.step (.Write (.saver b) ((change b).edit state))
        saver := Function.update s.saver b (.writing ((change b).edit state)) } := by
    simp only [ConfigReload.step, stepSaver, hs, if_pos (returned_iff.2 hidle), hstate, if_pos hvalid]
  have hrun := @Shared.run_writeBegin _ _ _ _ ((change b).edit state) hidle
  have hwriting := @run_writing change
    { s with
      shared := s.shared.step (.Write (.saver b) ((change b).edit state))
      saver := Function.update s.saver b (.writing ((change b).edit state)) } b 2 _
    (Function.update_self ..)
  rw [writeBegin, Machine.run_cons] at hrun
  rw [List.replicate_succ, reloadRun, Machine.run_cons, hwrite]
  refine hwriting.trans ?_
  rw [← hrun]
  rfl

/-- A saver copies its state and stores its even epoch. -/
lemma run_saveEnd {state st : SharedState} {seq : BitVec 32} (hs : s.saver b = .writing st)
    (hcall : s.shared.call (.saver b) = .writeCopy state seq writeOrder) :
    reloadRun change s (List.replicate (writeOrder.length + 1) (.saver b)) =
      { s with
        shared :=
          { s.shared with
            mem := Function.update (copyFields state s.shared.mem writeOrder) .epoch (seq + 1)
            call := Function.update s.shared.call (.saver b) .idle } } := by
  have hrun := Shared.run_writeEnd hcall
  rw [writeEnd, ← List.replicate_succ'] at hrun
  rw [run_writing hs, hrun]

end

end ConfigReload

/-- The savers read in turn and then write; the second loads the odd epoch of the first. -/
def savesOverlapping : List ReloadEvent :=
  saveRead false ++ saveRead true ++ List.replicate 3 (.saver false) ++
    List.replicate 3 (.saver true) ++
    List.replicate (writeOrder.length + 1) (.saver false) ++
    List.replicate (writeOrder.length + 1) (.saver true)

/-- Afterwards the epoch is odd and the engine has nothing. -/
lemma stuck_savesOverlapping {change : Bool → ConfigChange} :
    ∃ mem : SharedState, mem.IsValid ∧ Seqlock.odd (mem .epoch) = true ∧
      (reloadRun change (init .InitDefaults 0 0 false) savesOverlapping).Stuck mem ∧
        (reloadRun change (init .InitDefaults 0 0 false) savesOverlapping).tick = .idle := by
  obtain ⟨-, shared, hmem, hcall, hresult, hread⟩ :=
    @run_saveRead change (init .InitDefaults 0 0 false) false rfl rfl (by decide) rfl
  obtain ⟨-, shared', hmem', hcall', hresult', hread'⟩ :=
    @run_saveRead change (reloadRun change (init .InitDefaults 0 0 false) (saveRead false)) true
      (by rw [hread]; rfl) (by rw [hread]; exact congrFun hcall _) (by rw [hread, hmem]; decide)
      (by rw [hread, hmem]; rfl)
  rw [hread] at hmem' hcall' hresult' hread'
  dsimp only at hmem' hcall' hresult' hread'
  rw [hmem] at hmem' hresult'
  rw [hcall] at hcall'
  rw [hresult] at hresult'
  have hidle : ∀ p, shared'.call p = .idle := fun p => congrFun hcall' p
  have hstate : ∀ b, shared'.result (.saver b) = .InitDefaults := by
    intro b
    rw [hresult']
    cases b <;> rfl
  rw [savesOverlapping, reloadRun_append, reloadRun_append, reloadRun_append, reloadRun_append,
    reloadRun_append, hread, hread']
  rw [@run_saveMark change _ false .InitDefaults rfl (hidle _) (hstate false) (by decide),
    @run_saveMark change _ true .InitDefaults rfl (hidle (.saver true)) (hstate true) (by decide),
    @run_saveEnd change _ false _ _ _ rfl rfl, @run_saveEnd change _ true _ _ _ rfl rfl]
  refine ⟨_, ?_, ?_, ⟨⟨?_, ?_, ?_, rfl⟩, rfl, ?_⟩, rfl⟩
  · exact isValid_written (edit_isValid (by decide))
  · simp only [Shared.goto, Shared.store, hmem', Function.update_self]
    rfl
  · simp [Shared.goto, Shared.store, hidle, Call.isQuiet]
  · intro b
    cases b <;> simp [SaverDone, returned, Function.update]
  · intro b
    cases b <;> simp
  · show _ = Call.idle
    simp [Shared.goto, Shared.store, hidle]

/-- When two calls of `Write` overlap, no later tick has the saves. -/
theorem reload_lost : ¬∀ (events tick : List ReloadEvent),
    (∀ b, (reloadRun (fun _ => .SignalConfigChange) (init .InitDefaults 0 0 false)
      events).SaverDone b) →
    (reloadRun (fun _ => .SignalConfigChange) (init .InitDefaults 0 0 false) events).tick = .idle →
    readOrder.length + 13 ≤ tick.count .engine →
    ∀ b, b ∈ (reloadRun (fun _ => .SignalConfigChange) (init .InitDefaults 0 0 false)
      (events ++ .quickSync :: tick)).config := by
  intro h
  obtain ⟨mem, hvalid, hodd, hstuck, hidle⟩ := @stuck_savesOverlapping fun _ => .SignalConfigChange
  have hmem := h savesOverlapping (List.replicate (readOrder.length + 13) .engine)
    hstuck.saves.done hidle
    (List.count_replicate_self (a := ReloadEvent.engine) (n := readOrder.length + 13)).ge true
  rw [reloadRun_append, hstuck.run hvalid hodd] at hmem
  cases hmem

end NextKey
