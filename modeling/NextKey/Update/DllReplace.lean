import NextKey.Lib.CrashLogic
import NextKey.Lib.Machine
import NextKey.Update.PendingDllApply

/-!
# The replacement of the TSF DLL

Model of `HandleTsfDllReplace` in `app/system/UpdateInstaller.cpp`: the update moves the live DLL to
`_old_version` and copies the new one to its path, or, when that fails, leaves the new one next to it
with a marker for the next start. Any operation may be refused, the process may stop between any two of
them, and a copy or a write that does not get through may leave a part behind.

Over any run of updates and starts, what stands at the live path is a whole DLL (`live_whole`).
-/

namespace NextKey

open Faults Program

/-- The file operations of an update, each of which happens at most once. -/
inductive ReplaceOp where
  | createOldDir
  | parkLive
  | createLive
  | fillLive
  | dropStalePending
  | dropStaleMarker
  | unpark
  | createPending
  | fillPending
  | hashPending
  | createMarker
  | beginMarker
  | finishMarker
  | dropMarker
  | dropPending
  deriving DecidableEq

namespace ExeDir

variable (dir : ExeDir)

/-- A file is written over. -/
def write (path : DllPath) (content : Bytes) : ExeDir :=
  { dir with file := Function.update dir.file path (some content) }

/-- `MoveFileW`, which does not replace a file, with whether it succeeds -/
def move (source target : DllPath) : Bool × ExeDir :=
  if (dir.file target).isSome then (false, dir) else dir.rename source target

end ExeDir

/-- What an update brings and finds. -/
structure Replacement where
  /-- The DLL of the update. -/
  new : Bytes
  sha256 : Bytes → Bytes
  timestamp : String
  /-- What a copy to a path leaves when it does not get through. -/
  part : DllPath → Bytes
  /-- The hash of the pending DLL when its reading fails part way. -/
  hashMisread : Bytes
  /-- How much of the marker is written when its writing fails part way. -/
  written : Fin 64

abbrev ReplaceProgram := Program ReplaceOp ExeDir

/-- `CopyFileW` of the new DLL to a path -/
def CopyNewDll (env : Replacement) (create fill : ReplaceOp) (path : DllPath) : ReplaceProgram Bool := do
  if !(← perform create (fun dir => (true, dir.write path (env.part path))) false) then
    return false
  else
    perform fill (fun dir => (true, dir.write path env.new)) false

/-- The marker of the pending DLL. -/
def writeMarker (env : Replacement) (sha : Bytes) : ReplaceProgram Unit := do
  if !(← perform .createMarker (fun dir => (true, dir.write .marker [])) false) then
    perform .dropPending (·.remove .pending) ()
  else
    perform .beginMarker (fun dir => ((), dir.write .marker (sha.take env.written))) ()
    if !(← perform .finishMarker (fun dir => (true, dir.write .marker sha)) false) then
      perform .dropMarker (·.remove .marker) ()
      perform .dropPending (·.remove .pending) ()
    else
      return ()

/-- The second way of C++ `HandleTsfDllReplace`, behind the comment "defer to next EXE startup". -/
def deferNewDll (env : Replacement) : ReplaceProgram Unit := do
  if !(← CopyNewDll env .createPending .fillPending .pending) then
    return ()
  else
    let sha ← perform .hashPending
      (fun dir => (((dir.file .pending).map env.sha256).getD [], dir)) env.hashMisread
    if sha = [] then
      perform .dropPending (·.remove .pending) ()
    else
      writeMarker env sha

/-- C++ `HandleTsfDllReplace` -/
def HandleTsfDllReplace (env : Replacement) : ReplaceProgram Unit := do
  perform .createOldDir (fun dir => ((), { dir with hasOldDir := true })) ()
  if !(← perform .parkLive (·.move .live (.parked env.timestamp)) false) then
    deferNewDll env
  else if ← CopyNewDll env .createLive .fillLive .live then
    perform .dropStalePending (·.remove .pending) ()
    perform .dropStaleMarker (·.remove .marker) ()
  else
    let _ ← perform .unpark (·.move (.parked env.timestamp) .live) false
    deferNewDll env

/-- An update, or a start of the program, with what becomes of its operations. -/
inductive DllEvent where
  | update (env : Replacement) (fate : ReplaceOp → Fate)
  | start (env : StartUp) (fate : FileOp → Fate)

namespace DllEvent

/-- What an event makes of the directory. -/
def apply (dir : ExeDir) : DllEvent → ExeDir
  | update env fate => (HandleTsfDllReplace env fate dir).2
  | start env fate => (ApplyPendingDllUpdate env fate dir).2

/-- The DLLs that an event brings. -/
def whole : DllEvent → List Bytes
  | update env _ => [env.new]
  | start _ _ => []

/-- What an event may leave of a DLL that it cannot copy to the end. -/
def part : DllEvent → List Bytes
  | update env _ => [env.part .pending]
  | start _ _ => []

/-- The hash function is the one given, no reading fails unnoticed, and the copy to the live path is
    not cut off. -/
def Sound (sha256 : Bytes → Bytes) : DllEvent → Prop
  | update env fate => env.sha256 = sha256 ∧ fate .hashPending ≠ .refused ∧
      (fate .createLive = .done → fate .fillLive = .done)
  | start env fate => env.sha256 = sha256 ∧ fate .readMarker ≠ .refused ∧ fate .hashPending ≠ .refused

end DllEvent

/-- 64 hexadecimal digits in lower case. -/
def IsHash (sha : Bytes) : Prop := sha ≠ [] ∧ ReadMarkerHash sha = sha

/-- A marker with a hash is long enough. -/
lemma length_ReadMarkerHash {content : Bytes} (h : ReadMarkerHash content ≠ []) :
    64 ≤ content.length := by
  unfold ReadMarkerHash at h
  dsimp only at h
  split at h
  · next hlength =>
    rw [List.length_map] at hlength
    refine hlength.ge.trans ((List.rdropWhile_prefix _ _).length_le.trans ?_)
    exact (List.dropWhile_suffix _).length_le
  · exact absurd rfl h

/-- A part of a marker says nothing. -/
lemma ReadMarkerHash_take (sha : Bytes) (n : Fin 64) : ReadMarkerHash (sha.take n) = [] := by
  by_contra hne
  have hlength := length_ReadMarkerHash hne
  rw [List.length_take] at hlength
  omega

namespace ExeDir

variable {dir : ExeDir} {path source target : DllPath} {content c : Bytes}

/-- What was written is there. -/
lemma write_self : (dir.write path content).file path = some content := by
  simp [write]

/-- Another path is as before. -/
lemma write_of_ne (h : target ≠ path) : (dir.write path content).file target = dir.file target := by
  simp [write, h]

/-- A file after a write is the one written, or was there. -/
lemma file_of_write (h : (dir.write path content).file target = some c) :
    target = path ∧ c = content ∨ target ≠ path ∧ dir.file target = some c := by
  unfold write at h
  dsimp only at h
  rw [Function.update_apply] at h
  split at h
  · next heq => exact .inl ⟨heq, (Option.some.inj h).symm⟩
  · next hne => exact .inr ⟨hne, h⟩

/-- A file after a removal was there. -/
lemma file_of_remove (h : (dir.remove path).2.file target = some c) : dir.file target = some c := by
  unfold remove at h
  dsimp only at h
  rw [Function.update_apply] at h
  split at h
  · cases h
  · exact h

/-- A file after a renaming was there, or is the one renamed. -/
lemma file_of_rename (h : (dir.rename source target).2.file path = some c) :
    dir.file path = some c ∨ path = target ∧ dir.file source = some c := by
  unfold rename at h
  split at h
  · exact .inl h
  · next moved hmoved =>
    split at h
    · simp only [Function.update_apply] at h
      split at h
      · next heq => exact .inr ⟨heq, hmoved.trans h⟩
      · split at h
        · cases h
        · exact .inl h
    · exact .inl h

/-- A file after a move was there, or is the one moved. -/
lemma file_of_move (h : (dir.move source target).2.file path = some c) :
    dir.file path = some c ∨ path = target ∧ dir.file source = some c := by
  unfold move at h
  split at h
  · exact .inl h
  · exact file_of_rename h

end ExeDir

/-- What is true of the files besides the live DLL: a parked one is whole, a pending one is whole or a
    part, and a marker that says anything is the hash of a whole one. -/
structure Beside (sha256 : Bytes → Bytes) (wholes parts : List Bytes) (dir : ExeDir) : Prop where
  parked : ∀ timestamp c, dir.file (.parked timestamp) = some c → c ∈ wholes
  pending : ∀ c, dir.file .pending = some c → c ∈ wholes ∨ c ∈ parts
  marker : ∀ text, dir.file .marker = some text →
    ReadMarkerHash text = [] ∨ ∃ c ∈ wholes, ReadMarkerHash text = sha256 c

/-- The live DLL is whole, too. -/
structure Intact (sha256 : Bytes → Bytes) (wholes parts : List Bytes) (dir : ExeDir) : Prop extends
    Beside sha256 wholes parts dir where
  live : ∀ c, dir.file .live = some c → c ∈ wholes

section Intact

variable {sha256 : Bytes → Bytes} {wholes parts : List Bytes} {dir : ExeDir}

/-- A removal breaks nothing. -/
lemma Intact.remove (h : Intact sha256 wholes parts dir) (path : DllPath) :
    Intact sha256 wholes parts (dir.remove path).2 where
  parked timestamp c hc := h.parked timestamp c (ExeDir.file_of_remove hc)
  pending c hc := h.pending c (ExeDir.file_of_remove hc)
  marker text ht := h.marker text (ExeDir.file_of_remove ht)
  live c hc := h.live c (ExeDir.file_of_remove hc)

/-- Nor does the folder for old files. -/
lemma Intact.createOldDir (h : Intact sha256 wholes parts dir) :
    Intact sha256 wholes parts { dir with hasOldDir := true } :=
  ⟨⟨h.parked, h.pending, h.marker⟩, h.live⟩

/-- A whole DLL is written to the live path. -/
lemma Beside.writeLive {new : Bytes} (h : Beside sha256 wholes parts dir) (hnew : new ∈ wholes) :
    Intact sha256 wholes parts (dir.write .live new) := by
  refine ⟨⟨fun timestamp c hc => ?_, fun c hc => ?_, fun text ht => ?_⟩, fun c hc => ?_⟩
  · exact h.parked timestamp c ((ExeDir.file_of_write hc).resolve_left (by simp)).2
  · exact h.pending c ((ExeDir.file_of_write hc).resolve_left (by simp)).2
  · exact h.marker text ((ExeDir.file_of_write ht).resolve_left (by simp)).2
  · obtain ⟨-, rfl⟩ | ⟨hne, -⟩ := ExeDir.file_of_write hc
    · exact hnew
    · exact absurd rfl hne

/-- Whatever is at the live path, the rest is in order. -/
lemma Beside.touchLive {part : Bytes} (h : Beside sha256 wholes parts dir) :
    Beside sha256 wholes parts (dir.write .live part) where
  parked timestamp c hc := h.parked timestamp c ((ExeDir.file_of_write hc).resolve_left (by simp)).2
  pending c hc := h.pending c ((ExeDir.file_of_write hc).resolve_left (by simp)).2
  marker text ht := h.marker text ((ExeDir.file_of_write ht).resolve_left (by simp)).2

/-- A whole DLL or a part is written to the pending path. -/
lemma Intact.writePending {content : Bytes} (h : Intact sha256 wholes parts dir)
    (hcontent : content ∈ wholes ∨ content ∈ parts) :
    Intact sha256 wholes parts (dir.write .pending content) := by
  refine ⟨⟨fun timestamp c hc => ?_, fun c hc => ?_, fun text ht => ?_⟩, fun c hc => ?_⟩
  · exact h.parked timestamp c ((ExeDir.file_of_write hc).resolve_left (by simp)).2
  · obtain ⟨-, rfl⟩ | ⟨hne, -⟩ := ExeDir.file_of_write hc
    · exact hcontent
    · exact absurd rfl hne
  · exact h.marker text ((ExeDir.file_of_write ht).resolve_left (by simp)).2
  · exact h.live c ((ExeDir.file_of_write hc).resolve_left (by simp)).2

/-- A marker of a whole DLL is written, or one that says nothing. -/
lemma Intact.writeMarker {text : Bytes} (h : Intact sha256 wholes parts dir)
    (htext : ReadMarkerHash text = [] ∨ ∃ c ∈ wholes, ReadMarkerHash text = sha256 c) :
    Intact sha256 wholes parts (dir.write .marker text) := by
  refine ⟨⟨fun timestamp c hc => ?_, fun c hc => ?_, fun t ht => ?_⟩, fun c hc => ?_⟩
  · exact h.parked timestamp c ((ExeDir.file_of_write hc).resolve_left (by simp)).2
  · exact h.pending c ((ExeDir.file_of_write hc).resolve_left (by simp)).2
  · obtain ⟨-, rfl⟩ | ⟨hne, -⟩ := ExeDir.file_of_write ht
    · exact htext
    · exact absurd rfl hne
  · exact h.live c ((ExeDir.file_of_write hc).resolve_left (by simp)).2

/-- A DLL goes from the live path to a parked one, or back. -/
lemma Intact.moves {dir' : ExeDir} {source target : DllPath} (h : Intact sha256 wholes parts dir)
    (hfile : ∀ path c, dir'.file path = some c →
      dir.file path = some c ∨ path = target ∧ dir.file source = some c)
    (hsource : ∀ c, dir.file source = some c → c ∈ wholes) (hpending : target ≠ .pending)
    (hmarker : target ≠ .marker) : Intact sha256 wholes parts dir' := by
  refine ⟨⟨fun timestamp c hc => ?_, fun c hc => ?_, fun text ht => ?_⟩, fun c hc => ?_⟩
  · obtain hsame | ⟨-, hmoved⟩ := hfile _ c hc
    · exact h.parked timestamp c hsame
    · exact hsource c hmoved
  · obtain hsame | ⟨htarget, -⟩ := hfile _ c hc
    · exact h.pending c hsame
    · exact absurd htarget.symm hpending
  · obtain hsame | ⟨htarget, -⟩ := hfile _ text ht
    · exact h.marker text hsame
    · exact absurd htarget.symm hmarker
  · obtain hsame | ⟨-, hmoved⟩ := hfile _ c hc
    · exact h.live c hsame
    · exact hsource c hmoved

end Intact

section Update

variable {env : Replacement} {wholes parts : List Bytes} {fate : ReplaceOp → Fate}

/-- The marker is written. -/
lemma triple_writeMarker (hsha : IsHash (env.sha256 env.new)) (hnew : env.new ∈ wholes) :
    Triple fate (Intact env.sha256 wholes parts) (writeMarker env (env.sha256 env.new))
      (fun _ => Intact env.sha256 wholes parts) (Intact env.sha256 wholes parts) := by
  have hdrop (path : DllPath) (op : ReplaceOp) : Triple fate (Intact env.sha256 wholes parts)
      (perform op (·.remove path) ()) (fun _ => Intact env.sha256 wholes parts)
      (Intact env.sha256 wholes parts) := Triple.keep fun _ h => h.remove path
  refine .bind (Triple.keep fun dir h => h.writeMarker (.inl rfl)) fun created => ?_
  refine .ite (fun _ => hdrop _ _) fun _ => ?_
  refine .bind (Triple.keep fun dir h => h.writeMarker (.inl (ReadMarkerHash_take _ env.written)))
    fun _ => ?_
  refine .bind (Triple.keep fun dir h => h.writeMarker (.inr ⟨env.new, hnew, hsha.2⟩))
    fun finished => ?_
  exact .ite (fun _ => .bind (hdrop _ _) fun _ => hdrop _ _) fun _ => .pure fun _ => id

/-- The new DLL is left for the next start. -/
lemma triple_deferNewDll (hsha : IsHash (env.sha256 env.new)) (hnew : env.new ∈ wholes)
    (hpart : env.part .pending ∈ parts) (hread : fate .hashPending ≠ .refused) :
    Triple fate (Intact env.sha256 wholes parts) (deferNewDll env)
      (fun _ => Intact env.sha256 wholes parts) (Intact env.sha256 wholes parts) := by
  -- after the copy, the pending DLL is the new one
  have hcopy : Triple fate (Intact env.sha256 wholes parts)
      (CopyNewDll env .createPending .fillPending .pending)
      (fun copied dir => Intact env.sha256 wholes parts dir ∧
        (copied = true → dir.file .pending = some env.new))
      (Intact env.sha256 wholes parts) := by
    refine .bind (Triple.keep fun dir h => h.writePending (.inr hpart)) fun created => ?_
    refine .ite (fun _ => .pure fun dir h => ⟨h, nofun⟩) fun _ => ?_
    refine .perform (fun _ dir h => ⟨h.writePending (.inl hnew), fun _ => ?_⟩)
      (fun _ dir h => ⟨h, nofun⟩) fun _ _ => id
    exact ExeDir.write_self
  refine .bind hcopy fun copied => .ite (fun _ => .pure fun _ h => h.1) fun hcopied => ?_
  have hread : Triple fate (fun dir => Intact env.sha256 wholes parts dir ∧
        (copied = true → dir.file .pending = some env.new))
      (perform .hashPending
        (fun dir => (((dir.file .pending).map env.sha256).getD [], dir)) env.hashMisread)
      (fun sha dir => sha = env.sha256 env.new ∧ Intact env.sha256 wholes parts dir)
      (Intact env.sha256 wholes parts) := by
    refine .perform (fun _ dir h => ⟨?_, h.1⟩) (fun hop => absurd hop hread) fun _ _ h => h.1
    dsimp only
    rw [h.2 (by simpa using hcopied)]
    rfl
  refine .bind hread fun sha => ?_
  by_cases hsha' : sha = env.sha256 env.new
  · subst hsha'
    refine Triple.conseq (.ite (fun _ => Triple.keep fun _ h => h.remove _)
      fun _ => triple_writeMarker hsha hnew) (fun _ h => h.2) (fun _ _ => id) fun _ => id
  · exact fun dir h => absurd h.1 hsha'

/-- An update keeps the directory intact. -/
lemma triple_HandleTsfDllReplace (hsha : IsHash (env.sha256 env.new)) (hnew : env.new ∈ wholes)
    (hpart : env.part .pending ∈ parts) (hread : fate .hashPending ≠ .refused)
    (hlive : fate .createLive = .done → fate .fillLive = .done) :
    Triple fate (Intact env.sha256 wholes parts) (HandleTsfDllReplace env)
      (fun _ => Intact env.sha256 wholes parts) (Intact env.sha256 wholes parts) := by
  have hdefer := triple_deferNewDll hsha hnew hpart hread
  -- a copy to the live path that begins also gets through
  have hcopy : Triple fate (Intact env.sha256 wholes parts)
      (CopyNewDll env .createLive .fillLive .live) (fun _ => Intact env.sha256 wholes parts)
      (Intact env.sha256 wholes parts) := by
    have hcreate : Triple fate (Intact env.sha256 wholes parts)
        (perform .createLive (fun dir => (true, dir.write .live (env.part .live))) false)
        (fun created dir => if created then fate .createLive = .done ∧
          Beside env.sha256 wholes parts dir else Intact env.sha256 wholes parts dir)
        (Intact env.sha256 wholes parts) :=
      .perform (fun hop _ h => ⟨hop, h.toBeside.touchLive⟩) (fun _ _ => id) fun _ _ => id
    refine .bind hcreate fun created => ?_
    cases created with
    | false => exact .pure fun _ => id
    | true =>
      rw [if_neg (by simp)]
      refine .perform (fun _ _ h => h.2.writeLive hnew) (fun hop _ h => ?_) fun hop _ h => ?_
      · exact absurd (hop.symm.trans (hlive h.1)) nofun
      · exact absurd (hop.symm.trans (hlive h.1)) nofun
  refine .bind (Triple.keep fun _ h => h.createOldDir) fun _ => ?_
  refine .bind (Triple.keep fun _ h => h.moves (fun _ _ => ExeDir.file_of_move) h.live nofun nofun)
    fun parked => ?_
  refine .ite (fun _ => hdefer) fun _ => .bind hcopy fun copied => .ite (fun _ => ?_) fun _ => ?_
  · exact .bind (Triple.keep fun _ h => h.remove _) fun _ => Triple.keep fun _ h => h.remove _
  · refine .bind (Triple.keep fun _ h => ?_) fun _ => hdefer
    exact h.moves (fun _ _ => ExeDir.file_of_move) (h.parked _) nofun nofun

end Update

section Start

variable {env : StartUp} {wholes parts : List Bytes} {fate : FileOp → Fate}

/-- A start changes only what the gate lets through, and only whole DLLs pass it. -/
lemma triple_ApplyPendingDllUpdate
    (hsep : ∀ part ∈ parts, ∀ whole ∈ wholes, env.sha256 part ≠ env.sha256 whole)
    (hmarker : fate .readMarker ≠ .refused) (hhash : fate .hashPending ≠ .refused) :
    Triple fate (Intact env.sha256 wholes parts) (ApplyPendingDllUpdate env)
      (fun _ => Intact env.sha256 wholes parts) (Intact env.sha256 wholes parts) := by
  have hswap : Triple fate (fun dir => Intact env.sha256 wholes parts dir ∧
        ∀ c, dir.file .pending = some c → c ∈ wholes) (swapPendingDll env)
      (fun _ => Intact env.sha256 wholes parts) (Intact env.sha256 wholes parts) := by
    refine .bind (Q := fun _ dir => Intact env.sha256 wholes parts dir ∧
      ∀ c, dir.file .pending = some c → c ∈ wholes) ?_ fun _ => ?_
    · exact .perform (fun _ _ h => ⟨h.1.createOldDir, h.2⟩) (fun _ _ => id) fun _ _ h => h.1
    refine .bind (Q := fun _ dir => Intact env.sha256 wholes parts dir ∧
      ∀ c, dir.file .pending = some c → c ∈ wholes) ?_ fun parked => ?_
    · refine .perform (fun _ dir h => ⟨?_, fun c hc => ?_⟩) (fun _ _ => id) fun _ _ h => h.1
      · exact h.1.moves (fun _ _ => ExeDir.file_of_rename) h.1.live nofun nofun
      · exact h.2 c ((ExeDir.file_of_rename hc).resolve_right (by simp))
    refine .ite (fun _ => .pure fun _ h => h.1) fun _ => ?_
    refine .bind (Q := fun _ => Intact env.sha256 wholes parts) ?_ fun installed => .ite (fun _ => ?_)
      fun _ => .bind (Triple.keep fun _ h => h.remove _) fun _ => .pure fun _ => id
    · refine .perform (fun _ _ h => ?_) (fun _ _ h => h.1) fun _ _ h => h.1
      exact h.1.moves (fun _ _ => ExeDir.file_of_rename) h.2 nofun nofun
    · refine .bind (Triple.keep fun _ h => ?_) fun _ => .pure fun _ => id
      exact h.moves (fun _ _ => ExeDir.file_of_rename) (h.parked _) nofun nofun
  refine .bind (Triple.keep fun _ => id) fun found => .ite (fun _ => ?_) fun _ => ?_
  · exact .bind (Triple.keep fun _ h => h.remove _) fun _ => .pure fun _ => id
  refine .bind (Q := fun expected dir => Intact env.sha256 wholes parts dir ∧
    expected = ((dir.file .marker).map ReadMarkerHash).getD []) ?_ fun expected => ?_
  · exact .perform (fun _ _ h => ⟨h, rfl⟩) (fun hop => absurd hop hmarker) fun _ _ => id
  refine .bind (Q := fun actual dir => Intact env.sha256 wholes parts dir ∧
    expected = ((dir.file .marker).map ReadMarkerHash).getD [] ∧
    actual = ((dir.file .pending).map env.sha256).getD []) ?_ fun actual => ?_
  · exact .perform (fun _ _ h => ⟨h.1, h.2, rfl⟩) (fun hop => absurd hop hhash) fun _ _ h => h.1
  refine .ite (fun _ => ?_) fun hgate => ?_
  · refine .bind (Q := fun _ => Intact env.sha256 wholes parts) ?_
      fun _ => .bind (Triple.keep fun _ h => h.remove _) fun _ => .pure fun _ => id
    exact .perform (fun _ _ h => h.1.remove _) (fun _ _ h => h.1) fun _ _ h => h.1
  · simp only [not_or, not_not] at hgate
    obtain ⟨hexpected, -, rfl⟩ := hgate
    refine hswap.conseq (fun dir h => ⟨h.1, fun c hc => ?_⟩) (fun _ _ => id) fun _ => id
    obtain ⟨hintact, hmarked, hhashed⟩ := h
    -- the marker says the hash of a whole DLL, which is that of the pending one
    obtain hwhole | hpart := hintact.pending c hc
    · exact hwhole
    · rw [hc] at hhashed
      cases htext : dir.file .marker with
      | none =>
        rw [htext] at hmarked
        exact absurd hmarked hexpected
      | some text =>
        rw [htext] at hmarked
        obtain hnothing | ⟨whole, hwhole, hsha⟩ := hintact.marker text htext
        · exact absurd (hmarked.trans hnothing) hexpected
        · exact absurd (hhashed.symm.trans (hmarked.trans hsha)) (hsep c hpart whole hwhole)

end Start

section Runs

variable {sha256 : Bytes → Bytes} {wholes parts : List Bytes} {dir : ExeDir}

/-- So does every event of a run. -/
lemma Intact.apply {e : DllEvent} (h : Intact sha256 wholes parts dir) (hsound : e.Sound sha256)
    (hsha : ∀ whole ∈ wholes, IsHash (sha256 whole)) (hwholes : ∀ whole ∈ e.whole, whole ∈ wholes)
    (hparts : ∀ part ∈ e.part, part ∈ parts)
    (hsep : ∀ part ∈ parts, ∀ whole ∈ wholes, sha256 part ≠ sha256 whole) :
    Intact sha256 wholes parts (e.apply dir) := by
  cases e with
  | update env fate =>
    obtain ⟨rfl, hread, hlive⟩ := hsound
    have hnew : env.new ∈ wholes := hwholes _ (List.mem_singleton_self _)
    have hpart : env.part .pending ∈ parts := hparts _ (List.mem_singleton_self _)
    exact (triple_HandleTsfDllReplace (hsha _ hnew) hnew hpart hread hlive).run h
  | start env fate =>
    obtain ⟨rfl, hmarker, hhash⟩ := hsound
    exact (triple_ApplyPendingDllUpdate hsep hmarker hhash).run h

/-- A directory with a live DLL, before its first update. -/
structure ExeDir.Fresh (old : Bytes) (dir : ExeDir) : Prop where
  live : dir.file .live = some old
  pending : dir.file .pending = none
  marker : dir.file .marker = none
  parked : ∀ timestamp, dir.file (.parked timestamp) = none

/-- The DLLs that a run meets. -/
def wholesOf (old : Bytes) (events : List DllEvent) : List Bytes := old :: events.flatMap DllEvent.whole

/-- After any updates and starts, refused and stopped anywhere, the live path has the first DLL or a
    whole DLL of one of the updates, or none. -/
theorem live_whole {old : Bytes} {events : List DllEvent} (hfresh : dir.Fresh old)
    (hsound : ∀ e ∈ events, e.Sound sha256)
    (hsha : ∀ whole ∈ wholesOf old events, IsHash (sha256 whole))
    (hsep : ∀ part ∈ events.flatMap DllEvent.part, ∀ whole ∈ wholesOf old events,
      sha256 part ≠ sha256 whole)
    {content : Bytes} (hlive : (Machine.run DllEvent.apply dir events).file .live = some content) :
    content ∈ wholesOf old events := by
  have hstart : Intact sha256 (wholesOf old events) (events.flatMap DllEvent.part) dir := by
    refine ⟨⟨fun timestamp c hc => ?_, fun c hc => ?_, fun text ht => ?_⟩, fun c hc => ?_⟩
    · exact absurd ((hfresh.parked timestamp).symm.trans hc) nofun
    · exact absurd (hfresh.pending.symm.trans hc) nofun
    · exact absurd (hfresh.marker.symm.trans ht) nofun
    · exact List.mem_cons.2 (.inl (Option.some.inj (hc.symm.trans hfresh.live)))
  have hrun : ∀ done ⊆ events,
      Intact sha256 (wholesOf old events) (events.flatMap DllEvent.part)
        (Machine.run DllEvent.apply dir done) := by
    intro done
    induction done using List.reverseRecOn with
    | nil => exact fun _ => hstart
    | append_singleton done e ih =>
      intro hdone
      have he : e ∈ events := hdone (by simp)
      rw [Machine.run_append]
      refine (ih (List.Subset.trans (List.subset_append_left _ _) hdone)).apply (hsound e he) hsha ?_ ?_ hsep
      · exact fun whole h => List.mem_cons_of_mem _ (List.mem_flatMap.2 ⟨e, he, h⟩)
      · exact fun part h => List.mem_flatMap.2 ⟨e, he, h⟩
  exact (hrun events (List.Subset.refl _)).live content hlive

end Runs

section Examples

/-- Hashes of the empty file, of `abc` and of any other one. -/
def hashOf (file : Bytes) : Bytes :=
  if file = [] then List.replicate 64 0x30 else if file = abcFile then abcHash else List.replicate 64 0x31

/-- An empty live DLL. -/
def emptyLive : ExeDir where
  file
    | .live => some []
    | _ => none
  hasOldDir := false

/-- An update to `abc`. -/
def abcUpdate : Replacement where
  new := abcFile
  sha256 := hashOf
  timestamp := "_20260101_120000_4242_1a2b"
  part _ := [0x61]
  hashMisread := []
  written := 0

def nextStart : StartUp where
  sha256 := hashOf
  timestamp := "_20260102_120000_4242_1a2b_pending"
  markerMisread := []
  hashMisread := []

/-- The live DLL is in use, and everything else is done until `op`. -/
def lockedUntil (op : Option ReplaceOp) : ReplaceOp → Fate := fun other =>
  if other = .parkLive then .refused else if some other = op then .stop else .done

/-- An update that stops within the copy of the pending DLL, and one that gets through. -/
def cutThenDeferred : List DllEvent :=
  [.update abcUpdate (lockedUntil (some .fillPending)), .start nextStart fun _ => .done,
    .update abcUpdate (lockedUntil none), .start nextStart fun _ => .done]

/-- An update that is cut off, and one that is deferred. -/
theorem live_whole_cut :
    (Machine.run DllEvent.apply emptyLive cutThenDeferred).file .live = some abcFile ∧
      abcFile ∈ wholesOf [] cutThenDeferred := by
  have hlive : (Machine.run DllEvent.apply emptyLive cutThenDeferred).file .live = some abcFile := by
    decide +kernel
  refine ⟨hlive, @live_whole hashOf emptyLive [] cutThenDeferred ⟨rfl, rfl, rfl, fun _ => rfl⟩ ?_ ?_ ?_
    abcFile hlive⟩
  · simp [cutThenDeferred, DllEvent.Sound, abcUpdate, nextStart, lockedUntil]
  · unfold IsHash
    decide +kernel
  · decide +kernel

end Examples

end NextKey
