import Mathlib.Data.List.DropRight
import Mathlib.Logic.Function.Basic
import NextKey.Lib.Faults

/-!
# The swap of the TSF DLL

Model of `app/system/PendingDllApply.cpp`. An update that could not replace the live DLL leaves the new
one next to it, with a marker that holds its hash; the next start of the program parks the live DLL,
renames the pending one to its path and removes the marker. Any of these operations may fail, and the
process may stop between any two of them. A renaming happens as a whole or not at all.

The live DLL is gone for good when it is parked and neither the pending one nor the parked one gets to
its path: the next start cannot park what is not there and gives up.
-/

namespace NextKey

open Faults

abbrev Bytes := List UInt8

/-- `std::isxdigit` of the "C" locale -/
def isxdigit (c : UInt8) : Bool :=
  0x30 ≤ c && c ≤ 0x39 || 0x41 ≤ c && c ≤ 0x46 || 0x61 ≤ c && c ≤ 0x66

/-- `std::tolower` of the "C" locale -/
def tolower (c : UInt8) : UInt8 := if 0x41 ≤ c && c ≤ 0x5A then c + 0x20 else c

/-- C++ `ReadMarkerHash` of a marker file with this content -/
def ReadMarkerHash (content : Bytes) : Bytes :=
  let hex := (content.dropWhile (!isxdigit ·)).rdropWhile (!isxdigit ·)
  let hex := hex.map tolower
  if hex.length = 64 then hex else []

/-- The paths under the directory of the program that the swap uses. -/
inductive DllPath where
  | live
  | pending
  | marker
  /-- In `_old_version`, under the name that `MakeParkedDllTimestamp` makes. -/
  | parked (timestamp : String)
  deriving DecidableEq

/-- The directory of the program. -/
structure ExeDir where
  file : DllPath → Option Bytes
  /-- Whether `_old_version` exists. -/
  hasOldDir : Bool

/-- The file operations of a run, each of which happens at most once. -/
inductive FileOp where
  | findPending
  | readMarker
  | hashPending
  | createOldDir
  | parkLive
  | installPending
  | rollBack
  | removePending
  | removeMarker
  deriving DecidableEq

/-- C++ `PendingDllState` -/
inductive PendingDllState where
  | none
  | swapFailed
  | swapDoneNeedsReboot
  deriving DecidableEq

namespace ExeDir

variable (dir : ExeDir)

/-- Whether a file can be put at a path. -/
def hasFolder : DllPath → Bool
  | .parked _ => dir.hasOldDir
  | _ => true

/-- `std::filesystem::remove` -/
def remove (path : DllPath) : Unit × ExeDir :=
  ((), { dir with file := Function.update dir.file path none })

/-- `std::filesystem::rename`, with whether it succeeds -/
def rename (source target : DllPath) : Bool × ExeDir :=
  match dir.file source with
  | none => (false, dir)
  | some content =>
    if dir.hasFolder target then
      let file := Function.update (Function.update dir.file source none) target (some content)
      (true, { dir with file })
    else (false, dir)

end ExeDir

/-- What a run of the program finds besides the files. -/
structure StartUp where
  /-- The hash of a file in lower-case hexadecimal digits. -/
  sha256 : Bytes → Bytes
  timestamp : String
  /-- What the marker reads as when the reading fails, at the start or part way. -/
  markerMisread : Bytes
  /-- The same for the hash of the pending DLL. -/
  hashMisread : Bytes

abbrev FileProgram := Program FileOp ExeDir

open Program

/-- C++ `ApplyPendingDllUpdate` behind the hash gate -/
def swapPendingDll (env : StartUp) : FileProgram PendingDllState := do
  perform .createOldDir (fun dir => ((), { dir with hasOldDir := true })) ()
  let parked := DllPath.parked env.timestamp
  if !(← perform .parkLive (·.rename .live parked) false) then
    return .swapFailed
  else if !(← perform .installPending (·.rename .pending .live) false) then
    let _ ← perform .rollBack (·.rename parked .live) false
    return .swapFailed
  else
    perform .removeMarker (·.remove .marker) ()
    return .swapDoneNeedsReboot

/-- C++ `ApplyPendingDllUpdate` -/
def ApplyPendingDllUpdate (env : StartUp) : FileProgram PendingDllState := do
  if !(← perform .findPending (fun dir => ((dir.file .pending).isSome, dir)) false) then
    perform .removeMarker (·.remove .marker) ()
    return .none
  else
    let expected ← perform .readMarker
      (fun dir => (((dir.file .marker).map ReadMarkerHash).getD [], dir))
      (ReadMarkerHash env.markerMisread)
    let actual ← perform .hashPending
      (fun dir => (((dir.file .pending).map env.sha256).getD [], dir)) env.hashMisread
    if expected = [] ∨ actual = [] ∨ expected ≠ actual then
      perform .removePending (·.remove .pending) ()
      perform .removeMarker (·.remove .marker) ()
      return .none
    else
      swapPendingDll env

/-- The hash that `ReadMarkerHash` answers. -/
def expectedHash (env : StartUp) (fate : FileOp → Fate) (dir : ExeDir) : Bytes :=
  match fate .readMarker with
  | .done => ((dir.file .marker).map ReadMarkerHash).getD []
  | _ => ReadMarkerHash env.markerMisread

/-- The hash that `ComputeFileSha256` answers. -/
def actualHash (env : StartUp) (fate : FileOp → Fate) (dir : ExeDir) : Bytes :=
  match fate .hashPending with
  | .done => ((dir.file .pending).map env.sha256).getD []
  | _ => env.hashMisread

/-- The pending DLL is found, passes the hash gate, and the process goes on. -/
def PassesGate (env : StartUp) (fate : FileOp → Fate) (dir : ExeDir) : Prop :=
  fate .findPending = .done ∧ fate .readMarker ≠ .stop ∧ fate .hashPending ≠ .stop ∧
    expectedHash env fate dir ≠ [] ∧ expectedHash env fate dir = actualHash env fate dir

/-- `_old_version` is there when the live DLL is to be parked. -/
def HasOldDir (fate : FileOp → Fate) (dir : ExeDir) : Prop :=
  fate .createOldDir = .done ∨ fate .createOldDir = .refused ∧ dir.hasOldDir = true

/-- The live DLL is parked, and neither DLL gets to its path. -/
def Strands (env : StartUp) (fate : FileOp → Fate) (dir : ExeDir) : Prop :=
  PassesGate env fate dir ∧ HasOldDir fate dir ∧ fate .parkLive = .done ∧
    (fate .installPending = .stop ∨ fate .installPending = .refused ∧ fate .rollBack ≠ .done)

/-- A live DLL, a pending one that matches its marker, and an empty parking folder. -/
structure ExeDir.Ready (env : StartUp) (old new : Bytes) (dir : ExeDir) : Prop where
  live : dir.file .live = some old
  pending : dir.file .pending = some new
  matching : ∃ text, dir.file .marker = some text ∧ ReadMarkerHash text ≠ [] ∧
    ReadMarkerHash text = env.sha256 new
  parked : ∀ timestamp, dir.file (.parked timestamp) = none

/-- Every DLL is one of the two. -/
def ExeDir.Holds (old new : Bytes) (dir : ExeDir) : Prop :=
  ∀ path, path ≠ .marker → ∀ content, dir.file path = some content → content = old ∨ content = new

namespace ExeDir

variable {dir : ExeDir} {old new : Bytes}

/-- A removal keeps the two DLLs apart. -/
lemma Holds.remove (h : dir.Holds old new) (path : DllPath) : (dir.remove path).2.Holds old new := by
  intro target htarget content hcontent
  unfold ExeDir.remove at hcontent
  dsimp only at hcontent
  rw [Function.update_apply] at hcontent
  split at hcontent
  · cases hcontent
  · exact h target htarget content hcontent

/-- So does a renaming. -/
lemma Holds.rename {source target : DllPath} (h : dir.Holds old new) (hsource : source ≠ .marker) :
    (dir.rename source target).2.Holds old new := by
  intro path hpath content hcontent
  unfold ExeDir.rename at hcontent
  split at hcontent
  · exact h path hpath content hcontent
  · next moved hmoved =>
    split at hcontent
    · simp only [Function.update_apply] at hcontent
      split at hcontent
      · cases hcontent
        exact h source hsource _ hmoved
      · split at hcontent
        · cases hcontent
        · exact h path hpath content hcontent
    · exact h path hpath content hcontent

/-- At the start nothing has moved. -/
lemma Ready.holds {env : StartUp} (h : dir.Ready env old new) : dir.Holds old new := by
  intro path hpath content hcontent
  cases path with
  | live => exact .inl (Option.some.inj (hcontent.symm.trans h.live))
  | pending => exact .inr (Option.some.inj (hcontent.symm.trans h.pending))
  | marker => exact absurd rfl hpath
  | parked timestamp => exact absurd (hcontent.symm.trans (h.parked timestamp)) nofun

end ExeDir

variable {env : StartUp} {old new : Bytes}

/-- A removal, done or refused. -/
lemma preserves_remove {path : DllPath} {op : FileOp} :
    Preserves (ExeDir.Holds old new) (perform op (·.remove path) ()) :=
  .perform fun _ h => h.remove path

/-- The swap. -/
lemma swapPendingDll_holds : Preserves (ExeDir.Holds old new) (swapPendingDll env) := by
  refine .bind (.perform fun _ h => h) fun _ => ?_
  refine .bind (.perform fun _ h => h.rename nofun) fun parked => ?_
  refine .ite (.pure _) (.bind (.perform fun _ h => h.rename nofun) fun installed => ?_)
  refine .ite (.bind (.perform fun _ h => h.rename nofun) fun _ => .pure _) ?_
  exact .bind preserves_remove fun _ => .pure _

/-- Wherever a run stops, every DLL is one of the two. -/
lemma ApplyPendingDllUpdate_holds :
    Preserves (ExeDir.Holds old new) (ApplyPendingDllUpdate env) := by
  refine .bind (.perform fun _ h => h) fun found => .ite (.bind preserves_remove fun _ => .pure _) ?_
  refine .bind (.perform fun _ h => h) fun expected => .bind (.perform fun _ h => h) fun actual => ?_
  exact .ite (.bind preserves_remove fun _ => .bind preserves_remove fun _ => .pure _)
    swapPendingDll_holds

section Live

variable {dir : ExeDir} {fate : FileOp → Fate}

/-- Another file is removed. -/
@[simp] lemma ExeDir.remove_live {path : DllPath} (h : path ≠ .live) :
    (dir.remove path).2.file .live = dir.file .live := by
  exact Function.update_of_ne h.symm none dir.file

/-- A renaming into a folder that is there. -/
lemma ExeDir.exists_rename {source target : DllPath} {content} (h : dir.file source = some content)
    (hfolder : dir.hasFolder target = true) :
    ∃ dir', dir.rename source target = (true, dir') ∧ dir'.file target = some content ∧
      ∀ path, path ≠ target → dir'.file path = if path = source then none else dir.file path := by
  unfold ExeDir.rename
  rw [h]
  dsimp only
  rw [if_pos hfolder]
  refine ⟨_, rfl, Function.update_self .., fun path hpath => ?_⟩
  dsimp only
  rw [Function.update_of_ne hpath, Function.update_apply]

/-- Nothing that is removed is the live DLL. -/
lemma keepsLive_remove {path : DllPath} {op : FileOp} {content} (h : path ≠ .live) :
    Preserves (fun dir : ExeDir => dir.file .live = content) (perform op (·.remove path) ()) :=
  .perform fun _ hlive => (ExeDir.remove_live h).trans hlive

/-- The removal of the marker leaves the live DLL. -/
lemma keepsLive_removeMarker {content} (result : PendingDllState) :
    Preserves (fun dir : ExeDir => dir.file .live = content)
      (perform FileOp.removeMarker (·.remove .marker) () >>= fun _ => pure result) :=
  .bind (keepsLive_remove nofun) fun _ => .pure _

/-- So does discarding the pending one. -/
lemma keepsLive_discard {content} (result : PendingDllState) :
    Preserves (fun dir : ExeDir => dir.file .live = content)
      (perform FileOp.removePending (·.remove .pending) () >>= fun _ =>
        perform FileOp.removeMarker (·.remove .marker) () >>= fun _ => pure result) :=
  .bind (keepsLive_remove nofun) fun _ => keepsLive_removeMarker result

/-- After the swap there is a live DLL. -/
lemma swapPendingDll_live (hlive : dir.file .live = some old)
    (hpending : dir.file .pending = some new) :
    (swapPendingDll env fate dir).2.file .live = none ↔
      HasOldDir fate dir ∧ fate .parkLive = .done ∧
        (fate .installPending = .stop ∨
          fate .installPending = .refused ∧ fate .rollBack ≠ .done) := by
  unfold swapPendingDll
  by_cases hstop : fate .createOldDir = .stop
  · rw [bind_none (perform_stop hstop)]
    simp [hlive, HasOldDir, hstop]
  -- whether the folder is there now decides what becomes of the parking
  obtain ⟨dir', hrun, hfile, hmade⟩ : ∃ dir',
      perform .createOldDir (fun dir : ExeDir => ((), { dir with hasOldDir := true })) () fate dir =
        (some (), dir') ∧ dir'.file = dir.file ∧ (dir'.hasOldDir = true ↔ HasOldDir fate dir) := by
    cases hcreate : fate .createOldDir with
    | done => exact ⟨_, perform_done hcreate, rfl, by simp [HasOldDir, hcreate]⟩
    | refused => exact ⟨_, perform_refused hcreate, rfl, by simp [HasOldDir, hcreate]⟩
    | stop => exact absurd hcreate hstop
  rw [bind_some hrun, ← hmade]
  have hlive' : dir'.file .live = some old := hfile ▸ hlive
  have hpending' : dir'.file .pending = some new := hfile ▸ hpending
  cases hpark : fate .parkLive with
  | stop => simp [bind_none (perform_stop hpark), hlive']
  | refused => simp [bind_some (perform_refused hpark), hlive']
  | done =>
    rw [bind_some (perform_done hpark)]
    cases hold : dir'.hasOldDir with
    | false => simp [ExeDir.rename, hlive', ExeDir.hasFolder, hold]
    | true =>
      obtain ⟨parked, hrename, hparked, hrest⟩ :=
        @ExeDir.exists_rename _ _ (.parked env.timestamp) _ hlive' hold
      have hnone : parked.file .live = none := by simpa using hrest .live nofun
      have hpending : parked.file .pending = some new := by
        simpa [hpending'] using hrest .pending nofun
      rw [hrename, if_neg (by simp)]
      cases hinstall : fate .installPending with
      | stop => simp [bind_none (perform_stop hinstall), hnone]
      | refused =>
        rw [bind_some (perform_refused hinstall), if_pos (by rfl)]
        cases hroll : fate .rollBack with
        | done =>
          obtain ⟨restored, hback, hlive, -⟩ := @ExeDir.exists_rename _ _ .live _ hparked rfl
          simp [bind_some (perform_done hroll), hback, hlive]
        | refused => simp [bind_some (perform_refused hroll), hnone]
        | stop => simp [bind_none (perform_stop hroll), hnone]
      | done =>
        obtain ⟨swapped, hmove, hlive, -⟩ := @ExeDir.exists_rename _ _ .live _ hpending rfl
        rw [bind_some (perform_done hinstall), hmove, if_neg (by simp)]
        refine iff_of_false (fun hgone => ?_) (by simp)
        exact absurd (hgone.symm.trans (keepsLive_removeMarker _ hlive)) nofun

/-- The reading of the marker. -/
lemma readMarker_apply (h : fate .readMarker ≠ .stop) :
    perform .readMarker (fun dir : ExeDir => (((dir.file .marker).map ReadMarkerHash).getD [], dir))
      (ReadMarkerHash env.markerMisread) fate dir = (some (expectedHash env fate dir), dir) := by
  unfold perform expectedHash
  cases hop : fate .readMarker with
  | done => rfl
  | refused => rfl
  | stop => exact absurd hop h

/-- The hash of the pending DLL. -/
lemma hashPending_apply (h : fate .hashPending ≠ .stop) :
    perform .hashPending (fun dir : ExeDir => (((dir.file .pending).map env.sha256).getD [], dir))
      env.hashMisread fate dir = (some (actualHash env fate dir), dir) := by
  unfold perform actualHash
  cases hop : fate .hashPending with
  | done => rfl
  | refused => rfl
  | stop => exact absurd hop h

/-- What a run leaves of a live DLL and a pending one. -/
lemma ApplyPendingDllUpdate_live (hlive : dir.file .live = some old)
    (hpending : dir.file .pending = some new) :
    (ApplyPendingDllUpdate env fate dir).2.file .live = none ↔ Strands env fate dir := by
  unfold ApplyPendingDllUpdate Strands PassesGate
  cases hfind : fate .findPending with
  | stop => simp [bind_none (perform_stop hfind), hlive]
  | refused =>
    rw [bind_some (perform_refused hfind), if_pos (by rfl)]
    refine iff_of_false (fun hnone => ?_) (by simp)
    exact absurd (hnone.symm.trans (keepsLive_removeMarker _ hlive)) nofun
  | done =>
    rw [bind_some (perform_done hfind), if_neg (by simp [hpending])]
    by_cases hread : fate .readMarker = .stop
    · simp [bind_none (perform_stop hread), hlive, hread]
    rw [bind_some (readMarker_apply hread)]
    by_cases hhash : fate .hashPending = .stop
    · simp [bind_none (perform_stop hhash), hlive, hhash]
    rw [bind_some (hashPending_apply hhash)]
    split
    · next hbad =>
      refine iff_of_false
        (fun hnone => absurd (hnone.symm.trans (keepsLive_discard _ hlive)) nofun) ?_
      rintro ⟨⟨-, -, -, hne, heq⟩, -⟩
      obtain h | h | h := hbad
      · exact hne h
      · exact hne (heq.trans h)
      · exact h heq
    · next hgood =>
      obtain ⟨-, hne, heq⟩ : _ ∧ _ ∧ expectedHash env fate dir = actualHash env fate dir := by
        simpa only [not_or, not_not] using hgood
      rw [swapPendingDll_live hlive hpending]
      simp [hread, hhash, hne, heq]

/-- A run does not bring the live DLL back. -/
lemma ApplyPendingDllUpdate_none (hlive : dir.file .live = none) (done : ∀ op, fate op = .done) :
    (ApplyPendingDllUpdate env fate dir).2.file .live = none := by
  unfold ApplyPendingDllUpdate
  rw [bind_some (perform_done (done _))]
  split
  · exact keepsLive_removeMarker _ hlive
  · rw [bind_some (perform_done (done _)), bind_some (perform_done (done _))]
    split
    · exact keepsLive_discard _ hlive
    · unfold swapPendingDll
      rw [bind_some (perform_done (done _)), bind_some (perform_done (done _))]
      simp [ExeDir.rename, hlive]

/-- A run in which every operation is done keeps a DLL at the live path. -/
lemma ApplyPendingDllUpdate_some (hlive : dir.file .live ≠ none) (done : ∀ op, fate op = .done) :
    (ApplyPendingDllUpdate env fate dir).2.file .live ≠ none := by
  obtain ⟨old, hold⟩ := Option.ne_none_iff_exists'.1 hlive
  cases hpending : dir.file .pending with
  | some new =>
    rw [Ne, ApplyPendingDllUpdate_live hold hpending]
    rintro ⟨-, -, -, hinstall | ⟨hinstall, -⟩⟩
    · exact absurd ((done _).symm.trans hinstall) nofun
    · exact absurd ((done _).symm.trans hinstall) nofun
  | none =>
    unfold ApplyPendingDllUpdate
    rw [bind_some (perform_done (done _)), if_pos (by simp [hpending])]
    intro hnone
    exact absurd (hnone.symm.trans (keepsLive_removeMarker _ hold)) nofun

end Live

/-- From a live DLL and a pending one that matches its marker, one run with any failures that stops
anywhere and a second one in which everything possible is done leave one of the two at the live path,
unless the first run strands both. -/
theorem ApplyPendingDllUpdate_twice {dir : ExeDir} (ready : dir.Ready env old new)
    (fate : FileOp → Fate) (env' : StartUp) :
    (let dir' := (ApplyPendingDllUpdate env fate dir).2
      let dir'' := (ApplyPendingDllUpdate env' (fun _ => .done) dir').2
      dir''.file .live = some old ∨ dir''.file .live = some new) ↔ ¬Strands env fate dir := by
  dsimp only
  generalize hdir' : (ApplyPendingDllUpdate env fate dir).2 = dir'
  have hstrands : dir'.file .live = none ↔ Strands env fate dir := by
    rw [← hdir']
    exact ApplyPendingDllUpdate_live ready.live ready.pending
  have hholds : dir'.Holds old new := hdir' ▸ ApplyPendingDllUpdate_holds ready.holds
  rw [← hstrands]
  constructor
  · rintro hsome hnone
    rw [ApplyPendingDllUpdate_none hnone fun _ => rfl] at hsome
    exact hsome.elim nofun nofun
  · intro hsome
    obtain ⟨content, hcontent⟩ := Option.ne_none_iff_exists'.1
      (@ApplyPendingDllUpdate_some env' _ _ hsome fun _ => rfl)
    obtain rfl | rfl := ApplyPendingDllUpdate_holds hholds .live nofun content hcontent
    · exact .inl hcontent
    · exact .inr hcontent

section Examples

/-- The file `abc`. -/
def abcFile : Bytes := [0x61, 0x62, 0x63]

/-- Its SHA-256 in hexadecimal digits. -/
def abcHash : Bytes :=
  "ba7816bf8f01cfea414140de5dae2223b00361a396177a9cb410ff61f20015ad".toList.map fun c => c.toNat.toUInt8

def startUp : StartUp where
  sha256 file := if file = abcFile then abcHash else []
  timestamp := "_20260101_120000_4242_1a2b_pending"
  markerMisread := []
  hashMisread := []

/-- An empty live DLL, the pending one `abc`, and its marker. -/
def exeDir : ExeDir where
  file
    | .live => some []
    | .pending => some abcFile
    | .marker => some abcHash
    | .parked _ => none
  hasOldDir := false

/-- The example is ready. -/
lemma exeDir_ready : exeDir.Ready startUp [] abcFile where
  live := rfl
  pending := rfl
  matching := ⟨abcHash, rfl, by decide +kernel, by decide +kernel⟩
  parked _ := rfl

/-- The pending DLL cannot be installed, the live one is rolled back, and the next run swaps them. -/
theorem ApplyPendingDllUpdate_twice_rollBack :
    let fate : FileOp → Fate := fun op => if op = .installPending then .refused else .done
    let dir' := (ApplyPendingDllUpdate startUp fate exeDir).2
    let dir'' := (ApplyPendingDllUpdate startUp (fun _ => .done) dir').2
    dir''.file .live = some [] ∨ dir''.file .live = some abcFile := by
  refine (ApplyPendingDllUpdate_twice exeDir_ready _ startUp).2 ?_
  rintro ⟨-, -, -, hstop | ⟨-, hroll⟩⟩
  · cases hstop
  · exact hroll rfl

/-- The process stops between the two renamings: the next run leaves no DLL at the live path. -/
theorem ApplyPendingDllUpdate_stopped :
    let fate : FileOp → Fate := fun op => if op = .installPending then .stop else .done
    let dir' := (ApplyPendingDllUpdate startUp fate exeDir).2
    let dir'' := (ApplyPendingDllUpdate startUp (fun _ => .done) dir').2
    exeDir.Ready startUp [] abcFile ∧ dir''.file .live = none :=
  ⟨exeDir_ready, by decide +kernel⟩

end Examples

end NextKey
