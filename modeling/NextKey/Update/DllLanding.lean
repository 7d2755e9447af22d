import NextKey.Update.DllReplace

/-!
# An update of the TSF DLL and the start behind it

An update has two ways to bring the new DLL in: at once, to the path that the live one has left, or by
the next start, with a marker that opens its gate. An update that is not stopped, and a start without
failures behind it, bring it in exactly when one of the two gets through and the live DLL is not lost
on the way (`update_lands_iff`): a start that finds no live DLL to park installs nothing.
-/

namespace NextKey

open Faults Program

section Landing

variable {env : Replacement} {env' : StartUp} {fate : ReplaceOp → Fate} {dir : ExeDir} {old : Bytes}

/-- The gate of the next start lets the pending DLL through. -/
def ExeDir.Opens (sha256 : Bytes → Bytes) (dir : ExeDir) : Prop :=
  ∃ content text, dir.file .pending = some content ∧ dir.file .marker = some text ∧
    ReadMarkerHash text ≠ [] ∧ ReadMarkerHash text = sha256 content

/-- The hash that the update writes down. -/
def Replacement.recorded (env : Replacement) (fate : ReplaceOp → Fate) : Bytes :=
  if fate .hashPending = .done then env.sha256 env.new else env.hashMisread

/-- The second way gets through: the pending DLL is copied, and the marker says its hash. -/
def Defers (env : Replacement) (fate : ReplaceOp → Fate) : Prop :=
  fate .createPending = .done ∧ fate .fillPending = .done ∧ fate .createMarker = .done ∧
    fate .finishMarker = .done ∧ ReadMarkerHash (env.recorded fate) = env.sha256 env.new

/-- The live DLL is moved away. -/
def Moves (fate : ReplaceOp → Fate) (dir : ExeDir) : Prop :=
  (fate .createOldDir = .done ∨ dir.hasOldDir = true) ∧ fate .parkLive = .done

/-- The first way gets through. -/
def Replaces (fate : ReplaceOp → Fate) (dir : ExeDir) : Prop :=
  Moves fate dir ∧ fate .createLive = .done ∧ fate .fillLive = .done

/-- The live DLL is moved away for nothing. -/
def Loses (fate : ReplaceOp → Fate) (dir : ExeDir) : Prop :=
  Moves fate dir ∧ fate .createLive ≠ .done ∧ fate .unpark ≠ .done

/-- A start without failures installs what the gate lets through, if there is a live DLL to park. -/
lemma start_of_opens {content : Bytes} (hopens : dir.Opens env'.sha256) {new : Bytes}
    (hpending : dir.file .pending = some new) (hlive : dir.file .live = some content) :
    (ApplyPendingDllUpdate env' (fun _ => .done) dir).2.file .live = some new := by
  obtain ⟨pending, text, hp, hmarker, hne, heq⟩ := hopens
  obtain rfl : pending = new := Option.some.inj (hp.symm.trans hpending)
  unfold ApplyPendingDllUpdate
  rw [bind_some (perform_done rfl), if_neg (by simp [hp]), bind_some (perform_done rfl),
    bind_some (perform_done rfl)]
  dsimp only
  rw [hmarker, hp]
  rw [if_neg (by simp [hne, ← heq])]
  unfold swapPendingDll
  obtain ⟨parked, hpark, -, hrest⟩ := @ExeDir.exists_rename
    { dir with hasOldDir := true } .live (.parked env'.timestamp) _ hlive rfl
  have hpending' : parked.file .pending = some pending := by simpa [hp] using hrest .pending nofun
  obtain ⟨installed, hinstall, hlive', -⟩ := @ExeDir.exists_rename parked _ .live _ hpending' rfl
  rw [bind_some (perform_done rfl), bind_some (perform_done rfl), hpark, if_neg (by simp),
    bind_some (perform_done rfl), hinstall, if_neg (by simp)]
  exact keepsLive_removeMarker _ hlive'

/-- A start without failures changes nothing at the live path when the gate is shut. -/
lemma start_of_not_opens (hopens : ¬dir.Opens env'.sha256) :
    (ApplyPendingDllUpdate env' (fun _ => .done) dir).2.file .live = dir.file .live := by
  unfold ApplyPendingDllUpdate
  rw [bind_some (perform_done rfl)]
  cases hpending : dir.file .pending with
  | none =>
    rw [if_pos (by simp)]
    exact keepsLive_removeMarker _ rfl
  | some content =>
    rw [if_neg (by simp), bind_some (perform_done rfl), bind_some (perform_done rfl)]
    dsimp only
    rw [if_pos ?_]
    · exact keepsLive_discard _ rfl
    · by_contra hgate
      simp only [not_or, not_not] at hgate
      obtain ⟨hexpected, -, heq⟩ := hgate
      cases hmarker : dir.file .marker with
      | none =>
        rw [hmarker] at hexpected
        exact hexpected rfl
      | some text =>
        rw [hmarker] at hexpected heq
        rw [hpending] at heq
        exact hopens ⟨content, text, hpending, hmarker, hexpected, heq⟩

/-- No marker says anything, and the live path is as it was. -/
def Shut (live : Option Bytes) (dir : ExeDir) : Prop :=
  dir.file .live = live ∧ ∀ text, dir.file .marker = some text → ReadMarkerHash text = []

/-- A marker that says nothing opens nothing. -/
lemma Shut.not_opens {live : Option Bytes} {sha256 : Bytes → Bytes} (h : Shut live dir) :
    ¬dir.Opens sha256 := by
  rintro ⟨content, text, -, hmarker, hne, -⟩
  exact hne (h.2 text hmarker)

/-- Another file is removed. -/
lemma Shut.remove {live : Option Bytes} {path : DllPath} (h : Shut live dir) (hpath : path ≠ .live) :
    Shut live (dir.remove path).2 :=
  ⟨(ExeDir.remove_live hpath).trans h.1, fun text ht => h.2 text (ExeDir.file_of_remove ht)⟩

/-- Another file is written. -/
lemma Shut.write {live : Option Bytes} {path : DllPath} {content : Bytes} (h : Shut live dir)
    (hpath : path ≠ .live) (hcontent : path = .marker → ReadMarkerHash content = []) :
    Shut live (dir.write path content) := by
  refine ⟨(ExeDir.write_of_ne hpath.symm).trans h.1, fun text ht => ?_⟩
  obtain ⟨heq, rfl⟩ | ⟨-, hsame⟩ := ExeDir.file_of_write ht
  · exact hcontent heq.symm
  · exact h.2 text hsame

/-- What the second way leaves: the live path as it was, and the gate open when it got through. -/
def Deferred (env : Replacement) (fate : ReplaceOp → Fate) (live : Option Bytes) (dir : ExeDir) :
    Prop :=
  dir.file .live = live ∧ (dir.Opens env.sha256 ↔ Defers env fate) ∧
    (Defers env fate → dir.file .pending = some env.new)

/-- Nothing was deferred. -/
lemma Shut.deferred {live : Option Bytes} (h : Shut live dir) (hfate : ¬Defers env fate) :
    Deferred env fate live dir :=
  ⟨h.1, iff_of_false h.not_opens hfate, fun hdefers => absurd hdefers hfate⟩

/-- The removals behind a failure change nothing of this. -/
lemma triple_drop {live : Option Bytes} (goesOn : ∀ op, fate op ≠ .stop) {op : ReplaceOp}
    {path : DllPath} (hpath : path ≠ .live) :
    Triple fate (Shut live) (perform op (·.remove path) ()) (fun _ => Shut live) fun _ => False :=
  .perform (fun _ _ h => h.remove hpath) (fun _ _ => id) fun hop => absurd hop (goesOn _)

/-- The marker gets through when it is created and finished. -/
lemma writeMarker_defers {live : Option Bytes} (goesOn : ∀ op, fate op ≠ .stop)
    (hcopied : fate .createPending = .done ∧ fate .fillPending = .done)
    (hsha : env.sha256 env.new ≠ []) :
    Triple fate (fun dir => Shut live dir ∧ dir.file .pending = some env.new)
      (writeMarker env (env.recorded fate)) (fun _ => Deferred env fate live) fun _ => False := by
  unfold writeMarker
  cases hcreate : fate .createMarker with
  | stop => exact absurd hcreate (goesOn _)
  | refused =>
    have hfate : ¬Defers env fate := fun h => absurd (hcreate.symm.trans h.2.2.1) nofun
    refine .bind_refused hcreate ?_
    rw [if_pos (by rfl)]
    exact (triple_drop goesOn (by decide)).conseq (fun _ h => h.1) (fun _ _ h => h.deferred hfate) fun _ => id
  | done =>
    have hwrite (text : Bytes) (htext : ReadMarkerHash text = []) (dir : ExeDir)
        (h : Shut live dir ∧ dir.file .pending = some env.new) :
        Shut live (dir.write .marker text) ∧ (dir.write .marker text).file .pending = some env.new :=
      ⟨h.1.write nofun fun _ => htext, (ExeDir.write_of_ne (by decide)).trans h.2⟩
    refine .bind_done (R := fun dir => Shut live dir ∧ dir.file .pending = some env.new) hcreate
      (fun _ => rfl) (hwrite [] rfl) ?_
    rw [if_neg (by simp)]
    refine .bind (Q := fun _ dir => Shut live dir ∧ dir.file .pending = some env.new)
      (.perform (fun _ => hwrite _ (ReadMarkerHash_take _ env.written)) (fun _ _ => id)
        fun hop => absurd hop (goesOn _)) fun _ => ?_
    cases hfinish : fate .finishMarker with
    | stop => exact absurd hfinish (goesOn _)
    | refused =>
      have hfate : ¬Defers env fate := fun h => absurd (hfinish.symm.trans h.2.2.2.1) nofun
      refine .bind_refused hfinish ?_
      rw [if_pos (by rfl)]
      exact (Triple.bind (triple_drop goesOn (by decide)) fun _ => triple_drop goesOn (by decide)).conseq
        (fun _ h => h.1) (fun _ _ h => h.deferred hfate) fun _ => id
    | done =>
      refine .bind_done (R := Deferred env fate live) hfinish (fun _ => rfl) (fun dir h => ?_) ?_
      · have hpending : (dir.write .marker (env.recorded fate)).file .pending = some env.new :=
          (ExeDir.write_of_ne (by decide)).trans h.2
        refine ⟨(ExeDir.write_of_ne (by decide)).trans h.1.1, ?_, fun _ => hpending⟩
        constructor
        · rintro ⟨content, text, hp, ht, -, heq⟩
          obtain rfl : content = env.new := Option.some.inj (hp.symm.trans hpending)
          obtain ⟨-, rfl⟩ | ⟨hne, -⟩ := ExeDir.file_of_write ht
          · exact ⟨hcopied.1, hcopied.2, hcreate, hfinish, heq⟩
          · exact absurd rfl hne
        · intro hdefers
          have heq := hdefers.2.2.2.2
          exact ⟨_, _, hpending, ExeDir.write_self, heq ▸ hsha, heq⟩
      · rw [if_neg (by simp)]
        exact .pure fun _ => id

/-- When the second way gets through. -/
lemma deferNewDll_defers {live : Option Bytes} (goesOn : ∀ op, fate op ≠ .stop)
    (hsha : env.sha256 env.new ≠ []) :
    Triple fate (Shut live) (deferNewDll env) (fun _ => Deferred env fate live) fun _ => False := by
  -- the copy says whether the pending DLL is the new one
  have hcopy : Triple fate (Shut live) (CopyNewDll env .createPending .fillPending .pending)
      (fun copied dir => Shut live dir ∧
        (copied = true ↔ fate .createPending = .done ∧ fate .fillPending = .done) ∧
        (copied = true → dir.file .pending = some env.new)) fun _ => False := by
    unfold CopyNewDll
    cases hcreate : fate .createPending with
    | stop => exact absurd hcreate (goesOn _)
    | refused =>
      refine .bind_refused hcreate ?_
      rw [if_pos (by rfl)]
      exact .pure fun _ h => ⟨h, by simp, nofun⟩
    | done =>
      refine .bind_done (R := Shut live) hcreate (fun _ => rfl) (fun _ h => h.write nofun nofun) ?_
      rw [if_neg (by simp)]
      refine .perform (fun hop _ h => ⟨h.write nofun nofun, by simp [hop], fun _ => ?_⟩)
        (fun hop _ h => ⟨h, by simp [hop], nofun⟩) fun hop => absurd hop (goesOn _)
      exact ExeDir.write_self
  refine .bind hcopy fun copied => ?_
  cases copied with
  | false =>
    rw [if_pos (by rfl)]
    refine .pure fun dir h => h.1.deferred fun hdefers => ?_
    exact absurd (h.2.1.2 ⟨hdefers.1, hdefers.2.1⟩) nofun
  | true =>
    rw [if_neg (by simp)]
    by_cases hcopied : fate .createPending = .done ∧ fate .fillPending = .done
    · refine .bind (Q := fun sha dir => sha = env.recorded fate ∧ Shut live dir ∧
        dir.file .pending = some env.new) ?_ fun sha => ?_
      · refine .perform (fun hop dir h => ⟨?_, h.1, h.2.2 rfl⟩) (fun hop dir h => ⟨?_, h.1, h.2.2 rfl⟩)
          fun hop => absurd hop (goesOn _)
        · dsimp only
          rw [h.2.2 rfl, Replacement.recorded, if_pos hop]
          rfl
        · rw [Replacement.recorded, if_neg (by simp [hop])]
      · by_cases hsha' : sha = env.recorded fate
        · subst hsha'
          refine Triple.conseq (.ite (fun hnothing => ?_)
            fun _ => writeMarker_defers goesOn hcopied hsha) (fun _ h => h.2) (fun _ _ => id) fun _ => id
          have hfate : ¬Defers env fate := by
            rintro ⟨-, -, -, -, heq⟩
            rw [hnothing] at heq
            exact hsha heq.symm
          exact (triple_drop goesOn (by decide)).conseq (fun _ h => h.1) (fun _ _ h => h.deferred hfate)
            fun _ => id
        · exact fun dir h => absurd h.1 hsha'
    · exact fun dir h => absurd (h.2.1.1 rfl) hcopied

/-- The live DLL is parked, and nothing is pending. -/
def Away (timestamp : String) (old : Bytes) (dir : ExeDir) : Prop :=
  Shut none dir ∧ dir.file (.parked timestamp) = some old

/-- The parking of a fresh directory. -/
lemma parkLive_spec (goesOn : ∀ op, fate op ≠ .stop) (hfresh : dir.Fresh old) :
    ∃ parked dir', perform ReplaceOp.parkLive (fun dir => dir.move .live (.parked env.timestamp)) false
        fate (perform ReplaceOp.createOldDir
          (fun dir : ExeDir => ((), { dir with hasOldDir := true })) () fate dir).2 =
          (some parked, dir') ∧
      (parked = true ∧ Moves fate dir ∧ Away env.timestamp old dir' ∨
        parked = false ∧ ¬Moves fate dir ∧ Shut (some old) dir') := by
  obtain ⟨made, hmade, hfile, hfolder⟩ : ∃ made, (perform ReplaceOp.createOldDir
      (fun dir : ExeDir => ((), { dir with hasOldDir := true })) () fate dir).2 = made ∧
      made.file = dir.file ∧
        (made.hasOldDir = true ↔ fate .createOldDir = .done ∨ dir.hasOldDir = true) := by
    cases hcreate : fate .createOldDir with
    | done => exact ⟨_, rfl, by simp [perform_done hcreate]⟩
    | refused => exact ⟨_, rfl, by simp [perform_refused hcreate]⟩
    | stop => exact absurd hcreate (goesOn _)
  rw [hmade]
  have hshut : Shut (some old) made :=
    ⟨hfile ▸ hfresh.live, fun text ht => absurd ((hfile ▸ hfresh.marker).symm.trans ht) (by simp)⟩
  cases hpark : fate .parkLive with
  | stop => exact absurd hpark (goesOn _)
  | refused =>
    refine ⟨false, made, perform_refused hpark, .inr ⟨rfl, fun h => ?_, hshut⟩⟩
    exact absurd (hpark.symm.trans h.2) (by simp)
  | done =>
    have hmove : made.move .live (.parked env.timestamp) = made.rename .live (.parked env.timestamp) :=
      if_neg (by simp [hfile, hfresh.parked])
    rw [perform_done hpark, hmove]
    cases hold : made.hasOldDir with
    | false =>
      have hrename : made.rename .live (.parked env.timestamp) = (false, made) := by
        simp [ExeDir.rename, hshut.1, ExeDir.hasFolder, hold]
      rw [hrename]
      refine ⟨false, made, rfl, .inr ⟨rfl, fun h => ?_, hshut⟩⟩
      exact absurd (hold.symm.trans (hfolder.2 h.1)) (by simp)
    | true =>
      obtain ⟨parked, hrename, hparked, hrest⟩ :=
        @ExeDir.exists_rename made .live (.parked env.timestamp) _ hshut.1 hold
      rw [hrename]
      refine ⟨true, parked, rfl, .inl ⟨rfl, ⟨hfolder.1 hold, hpark⟩, ⟨?_, fun text ht => ?_⟩, hparked⟩⟩
      · simpa using hrest .live (by simp)
      · exact hshut.2 text (by simpa using (hrest .marker (by simp)).symm.trans ht)

/-- What the update leaves at the live path when the live DLL is moved away. -/
def leftLive (env : Replacement) (fate : ReplaceOp → Fate) (old : Bytes) : Option Bytes :=
  if fate .createLive = .done then
    if fate .fillLive = .done then some env.new else some (env.part .live)
  else if fate .unpark = .done then some old
  else none

/-- The copy to the live path that the live DLL has left. -/
lemma copyLive_spec (goesOn : ∀ op, fate op ≠ .stop) :
    Triple fate (Away env.timestamp old) (CopyNewDll env .createLive .fillLive .live)
      (fun copied dir =>
        copied = true ∧ fate .createLive = .done ∧ fate .fillLive = .done ∧ Shut (some env.new) dir ∨
        copied = false ∧ fate .createLive = .done ∧ fate .fillLive ≠ .done ∧
          Shut (some (env.part .live)) dir ∨
        copied = false ∧ fate .createLive ≠ .done ∧ Away env.timestamp old dir) fun _ => False := by
  unfold CopyNewDll
  cases hcreate : fate .createLive with
  | stop => exact absurd hcreate (goesOn _)
  | refused =>
    refine .bind_refused hcreate ?_
    rw [if_pos (by rfl)]
    exact .pure fun _ h => .inr (.inr ⟨rfl, by simp, h⟩)
  | done =>
    refine .bind_done (R := Shut (some (env.part .live))) hcreate (fun _ => rfl) (fun dir h => ?_) ?_
    · exact ⟨ExeDir.write_self,
        fun text ht => h.1.2 text ((ExeDir.write_of_ne (by decide)).symm.trans ht)⟩
    rw [if_neg (by simp)]
    refine .perform (fun hop dir h => .inl ⟨rfl, rfl, hop, ExeDir.write_self, fun text ht => ?_⟩)
      (fun hop dir h => .inr (.inl ⟨rfl, rfl, by simp [hop], h⟩)) fun hop => absurd hop (goesOn _)
    exact h.2 text ((ExeDir.write_of_ne (by decide)).symm.trans ht)

/-- Behind the parking: either the new DLL is in place, or the second way is taken. -/
lemma triple_moved (goesOn : ∀ op, fate op ≠ .stop) (hsha : env.sha256 env.new ≠ []) :
    Triple fate (Away env.timestamp old)
      (do
        if ← CopyNewDll env .createLive .fillLive .live then
          perform .dropStalePending (·.remove .pending) ()
          perform .dropStaleMarker (·.remove .marker) ()
        else
          let _ ← perform .unpark (·.move (.parked env.timestamp) .live) false
          deferNewDll env)
      (fun _ dir => (fate .createLive = .done ∧ fate .fillLive = .done) ∧ Shut (some env.new) dir ∨
        ¬(fate .createLive = .done ∧ fate .fillLive = .done) ∧
          Deferred env fate (leftLive env fate old) dir) fun _ => False := by
  refine .bind (copyLive_spec goesOn) fun copied => .ite (fun hcopied => ?_) fun hcopied => ?_
  · by_cases hfates : fate .createLive = .done ∧ fate .fillLive = .done
    · refine (Triple.bind (triple_drop goesOn (by decide)) fun _ =>
        triple_drop goesOn (by decide)).conseq (fun dir h => ?_) (fun _ _ h => .inl ⟨hfates, h⟩) fun _ => id
      obtain ⟨-, -, -, hshut⟩ | ⟨hfalse, -⟩ | ⟨hfalse, -⟩ := h
      · exact hshut
      · exact absurd (hcopied.symm.trans hfalse) nofun
      · exact absurd (hcopied.symm.trans hfalse) nofun
    · rintro dir (⟨-, hcreate, hfill, -⟩ | ⟨hfalse, -⟩ | ⟨hfalse, -⟩)
      · exact absurd ⟨hcreate, hfill⟩ hfates
      · exact absurd (hcopied.symm.trans hfalse) nofun
      · exact absurd (hcopied.symm.trans hfalse) nofun
  · by_cases hfates : fate .createLive = .done ∧ fate .fillLive = .done
    · rintro dir (⟨htrue, -⟩ | ⟨-, -, hfill, -⟩ | ⟨-, hcreate, -⟩)
      · exact absurd htrue hcopied
      · exact absurd hfates.2 hfill
      · exact absurd hfates.1 hcreate
    refine .bind (Q := fun _ => Shut (leftLive env fate old)) ?_ fun _ =>
      (deferNewDll_defers goesOn hsha).conseq (fun _ => id) (fun _ _ h => .inr ⟨hfates, h⟩) fun _ => id
    refine .perform (fun hop dir h => ?_) (fun hop dir h => ?_) fun hop => absurd hop (goesOn _)
    · obtain ⟨htrue, -⟩ | ⟨-, hcreate, hfill, hshut⟩ | ⟨-, hcreate, haway⟩ := h
      · exact absurd htrue hcopied
      -- the part in the way keeps the old DLL out
      · have hmove : dir.move (.parked env.timestamp) .live = (false, dir) :=
          if_pos (by simp [hshut.1])
        rw [hmove, leftLive, if_pos hcreate, if_neg hfill]
        exact hshut
      · have hmove : dir.move (.parked env.timestamp) .live = dir.rename (.parked env.timestamp) .live :=
          if_neg (by simp [haway.1.1])
        obtain ⟨back, hrename, hlive, hrest⟩ :=
          @ExeDir.exists_rename dir (.parked env.timestamp) .live _ haway.2 rfl
        rw [hmove, hrename, leftLive, if_neg hcreate, if_pos hop]
        refine ⟨hlive, fun text ht => haway.1.2 text ?_⟩
        simpa using (hrest .marker (by decide)).symm.trans ht
    · obtain ⟨htrue, -⟩ | ⟨-, hcreate, hfill, hshut⟩ | ⟨-, hcreate, haway⟩ := h
      · exact absurd htrue hcopied
      · rw [leftLive, if_pos hcreate, if_neg hfill]
        exact hshut
      · rw [leftLive, if_neg hcreate, if_neg (by simp [hop])]
        exact haway.1

/-- The start behind the second way. -/
lemma start_of_deferred {live : Option Bytes} (h : Deferred env fate live dir)
    (hsame : env'.sha256 = env.sha256) (hlive : live ≠ some env.new) :
    (ApplyPendingDllUpdate env' (fun _ => .done) dir).2.file .live = some env.new ↔
      Defers env fate ∧ live ≠ none := by
  obtain ⟨hfile, hopens, hpending⟩ := h
  rw [← hsame] at hopens
  by_cases hdefers : Defers env fate
  · cases hcontent : live with
    | none =>
      rw [hcontent] at hfile
      rw [ApplyPendingDllUpdate_none hfile fun _ => rfl]
      simp
    | some content =>
      rw [hcontent] at hfile
      rw [start_of_opens (hopens.2 hdefers) (hpending hdefers) hfile]
      simp [hdefers]
  · rw [start_of_not_opens (hopens.not.2 hdefers), hfile]
    exact iff_of_false hlive fun h => hdefers h.1

/-- An update that is not stopped, and a start without failures behind it, leave the new DLL at the
    live path exactly when one of the two ways gets through and the live DLL is not lost on the way. -/
theorem update_lands_iff (hfresh : dir.Fresh old) (goesOn : ∀ op, fate op ≠ .stop)
    (hsha : env.sha256 env.new ≠ []) (hsame : env'.sha256 = env.sha256) (hold : old ≠ env.new)
    (hpart : env.part .live ≠ env.new) :
    (ApplyPendingDllUpdate env' (fun _ => .done) (HandleTsfDllReplace env fate dir).2).2.file .live =
        some env.new ↔
      Replaces fate dir ∨ Defers env fate ∧ ¬Loses fate dir := by
  obtain ⟨parked, dir', hpark, hcases⟩ := @parkLive_spec env fate dir old goesOn hfresh
  have hcreate : ∃ made, perform ReplaceOp.createOldDir
      (fun dir : ExeDir => ((), { dir with hasOldDir := true })) () fate dir = (some (), made) := by
    cases hop : fate .createOldDir with
    | done => exact ⟨_, perform_done hop⟩
    | refused => exact ⟨_, perform_refused hop⟩
    | stop => exact absurd hop (goesOn _)
  obtain ⟨made, hmade⟩ := hcreate
  rw [hmade] at hpark
  unfold HandleTsfDllReplace
  rw [bind_some hmade, bind_some hpark]
  obtain ⟨rfl, hmoves, haway⟩ | ⟨rfl, hmoves, hshut⟩ := hcases
  · rw [if_neg (by simp)]
    obtain ⟨hfates, hshut⟩ | ⟨hfates, hdeferred⟩ := (triple_moved goesOn hsha).result haway
    · rw [start_of_not_opens hshut.not_opens, hshut.1]
      exact iff_of_true rfl (.inl ⟨hmoves, hfates⟩)
    · have hleft : leftLive env fate old ≠ some env.new := by
        unfold leftLive
        split
        · rw [if_neg fun hfill => hfates ⟨‹_›, hfill⟩]
          exact fun heq => hpart (Option.some.inj heq)
        · split
          · exact fun heq => hold (Option.some.inj heq)
          · exact nofun
      have hloses : Loses fate dir ↔ leftLive env fate old = none := by
        unfold Loses leftLive
        by_cases hcreated : fate .createLive = .done
        · rw [if_pos hcreated, if_neg fun hfill => hfates ⟨hcreated, hfill⟩]
          exact iff_of_false (fun h => h.2.1 hcreated) nofun
        · rw [if_neg hcreated]
          by_cases hunpark : fate .unpark = .done
          · rw [if_pos hunpark]
            exact iff_of_false (fun h => h.2.2 hunpark) nofun
          · rw [if_neg hunpark]
            exact iff_of_true ⟨hmoves, hcreated, hunpark⟩ rfl
      rw [start_of_deferred hdeferred hsame hleft, hloses]
      exact (or_iff_right fun h => hfates h.2).symm
  · rw [if_pos (by rfl)]
    have hdeferred := (@deferNewDll_defers _ _ (some old) goesOn hsha).result hshut
    rw [start_of_deferred hdeferred hsame fun heq => hold (Option.some.inj heq)]
    have hreplaces : ¬Replaces fate dir := fun h => hmoves h.1
    have hloses : ¬Loses fate dir := fun h => hmoves h.1
    simp [hreplaces, hloses]

end Landing

/-- The live DLL cannot be moved. -/
theorem update_lands_locked :
    (ApplyPendingDllUpdate nextStart (fun _ => .done)
      (HandleTsfDllReplace abcUpdate (lockedUntil none) emptyLive).2).2.file .live = some abcFile := by
  refine (@update_lands_iff abcUpdate nextStart (lockedUntil none) emptyLive []
    ⟨rfl, rfl, rfl, fun _ => rfl⟩ (fun op => by cases op <;> decide) (by decide +kernel) rfl (by decide)
    (by decide)).2 (.inr ?_)
  refine ⟨⟨rfl, rfl, rfl, rfl, by decide +kernel⟩, fun hloses => ?_⟩
  exact absurd hloses.1.2 (by decide)

end NextKey
