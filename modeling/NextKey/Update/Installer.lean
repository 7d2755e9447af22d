import Mathlib.Data.List.Infix
import NextKey.Update.DllReplace

/-!
# The installation of an update

Model of `RunUpdateInstaller` and `CopyDirectoryContents` in `app/system/UpdateInstaller.cpp`: the
programs are set aside in `_old_version`, the archive is unpacked to `_update_temp`, the TSF DLL is
replaced and the other files are copied; when the archive does not unpack, the programs are moved back.
Any operation may be refused, and the process may stop between any two of them. The waiting for other
processes and the launch of the program are left out, and names are taken as the file system compares
them, in lower case.

A rollback brings every file back, whatever failed before it (`rollback_restores`). In any run, no file
is lost but to the one that the archive has for its path (`nothing_lost`), and the configuration is left
alone (`config_kept`).
-/

namespace NextKey

open Faults Program

/-- A file name, in lower case. -/
abbrev FileName := List Char

/-- The path of a file below a directory. -/
abbrev RelPath := List FileName

/-- C++ `TSF_DLL_FILENAME` -/
def tsfDllFilename : FileName := "vkeytsf.dll".toList

/-- `TSF_DLL_FILENAME` with C++ `TSF_DLL_PENDING_SUFFIX` -/
def tsfDllPending : FileName := tsfDllFilename ++ ".pending".toList

/-- C++ `TSF_DLL_PENDING_MARKER` -/
def tsfDllPendingMarker : FileName := "_pending_dll_update".toList

/-- The marker of a failed update. -/
def updateFailed : FileName := "_update_failed".toList

def configToml : RelPath := ["config.toml".toList]

/-- The folder of the files that are set aside. -/
def oldVersionDir : FileName := "_old_version".toList

/-- The folder that the archive is unpacked to. -/
def updateTempDir : FileName := "_update_temp".toList

/-- `std::filesystem::path::extension` of a file name -/
def extension (name : FileName) : List Char :=
  let suffix := (name.reverse.takeWhile (· ≠ '.')).reverse
  if name.length ≤ suffix.length + 1 then [] else '.' :: suffix

/-- The files that step 2 sets aside. -/
def isProgram (name : FileName) : Bool :=
  (extension name == ".exe".toList || extension name == ".dll".toList) && name != tsfDllFilename

/-- `relativePath.wstring().find(L"..")` finds something. -/
def hasDots (path : RelPath) : Bool := path.any fun name => ['.', '.'] <:+: name

/-- The directory of the program: its own files, and those of its two working folders. -/
structure InstallDir where
  app : RelPath → Option Bytes
  old : FileName → Option Bytes
  temp : RelPath → Option Bytes
  hasOldDir : Bool

/-- The file operations of an installation. -/
inductive InstallOp where
  | clearPending
  | clearMarker
  | createOldDir
  | dropOld (name : FileName)
  | setAside (name : FileName)
  | clearTemp
  | beginExtract
  | extract
  | restore (name : FileName)
  | markFailed
  | replace (op : ReplaceOp)
  | dropNewDll
  | createFolder (path : RelPath)
  | createParent (path : RelPath)
  | beginCopy (path : RelPath)
  | finishCopy (path : RelPath)
  | removeTemp
  deriving DecidableEq

/-- What an installation meets. -/
structure Installation where
  /-- The listing of the directory of the program in step 2. -/
  listing : List FileName
  /-- The listing of `_old_version` in the rollback. -/
  oldListing : List FileName
  /-- The archive, and what is there of it when the extraction fails. -/
  archive : RelPath → Option Bytes
  extracted : RelPath → Option Bytes
  /-- The listing of `_update_temp`: names, and whether they are folders. -/
  topLevel : List (FileName × Bool)
  /-- The recursive listing of the folder that is copied, from there. -/
  entries : List (RelPath × Bool)
  /-- What a copy leaves that does not get through. -/
  part : RelPath → Bytes
  replacement : Replacement
  /-- The archive has nothing for the two working folders. -/
  plain : ∀ entry ∈ entries, entry.1.head? ≠ some oldVersionDir ∧ entry.1.head? ≠ some updateTempDir

/-- The folder that is copied: the only one in `_update_temp`, or `_update_temp` itself. -/
def Installation.sourceDir (env : Installation) : RelPath :=
  match env.topLevel with
  | [(name, true)] => [name]
  | _ => []

namespace InstallDir

variable (dir : InstallDir)

def writeApp (path : RelPath) (content : Bytes) : InstallDir :=
  { dir with app := Function.update dir.app path (some content) }

def removeApp (path : RelPath) : InstallDir :=
  { dir with app := Function.update dir.app path none }

def removeOld (name : FileName) : InstallDir :=
  { dir with old := Function.update dir.old name none }

/-- `MoveFileW` to `_old_version`, which does not replace a file -/
def setAside (name : FileName) : InstallDir :=
  if dir.hasOldDir ∧ dir.old name = none then
    { dir with
      app := Function.update dir.app [name] none
      old := Function.update dir.old name (dir.app [name]) }
  else dir

/-- `MoveFileW` from `_old_version`, which does not replace a file -/
def restore (name : FileName) : InstallDir :=
  if dir.app [name] = none then
    { dir with
      app := Function.update dir.app [name] (dir.old name)
      old := Function.update dir.old name none }
  else dir

/-- The files of the TSF DLL. -/
def dlls : ExeDir where
  file
    | .live => dir.app [tsfDllFilename]
    | .pending => dir.app [tsfDllPending]
    | .marker => dir.app [tsfDllPendingMarker]
    | .parked timestamp => dir.old (tsfDllFilename ++ timestamp.toList)
  hasOldDir := dir.hasOldDir

/-- Other files of the TSF DLL. -/
def withDlls (dlls : ExeDir) : InstallDir :=
  { dir with
    app := fun path =>
      if path = [tsfDllFilename] then dlls.file .live
      else if path = [tsfDllPending] then dlls.file .pending
      else if path = [tsfDllPendingMarker] then dlls.file .marker
      else dir.app path
    old := fun name =>
      if tsfDllFilename <+: name then
        dlls.file (.parked (String.ofList (name.drop tsfDllFilename.length)))
      else dir.old name
    hasOldDir := dlls.hasOldDir }

end InstallDir

abbrev InstallProgram := Program InstallOp InstallDir

/-- One file of step 2. -/
def setAsideFile (name : FileName) : InstallProgram Unit := do
  if (← read fun dir => (dir.app [name]).isSome) && isProgram name then
    perform (.dropOld name) (fun dir => ((), dir.removeOld name)) ()
    perform (.setAside name) (fun dir => ((), dir.setAside name)) ()
  else
    return ()

/-- Steps 1 to 3, with whether the archive is unpacked. -/
def prepareUpdate (env : Installation) : InstallProgram Bool := do
  perform .clearPending (fun dir => ((), dir.removeApp [tsfDllPending])) ()
  perform .clearMarker (fun dir => ((), dir.removeApp [tsfDllPendingMarker])) ()
  perform .createOldDir (fun dir => ((), { dir with hasOldDir := true })) ()
  each setAsideFile env.listing
  perform .clearTemp (fun dir => ((), { dir with temp := fun _ => none })) ()
  perform .beginExtract (fun dir => ((), { dir with temp := env.extracted })) ()
  perform .extract (fun dir => (true, { dir with temp := env.archive })) false

/-- One file of the rollback. -/
def restoreFile (name : FileName) : InstallProgram Unit := do
  if ← read fun dir => (dir.old name).isSome then
    perform (.restore name) (fun dir => ((), dir.restore name)) ()
  else
    return ()

/-- The rollback of an update that does not unpack. -/
def rollBackUpdate (env : Installation) : InstallProgram Unit := do
  each restoreFile env.oldListing
  perform .markFailed (fun dir => ((), dir.writeApp [updateFailed] [])) ()

/-- `std::filesystem::copy_file` with `overwrite_existing`, with whether it throws nothing -/
def copyFile (env : Installation) (path : RelPath) (content : Bytes) : InstallProgram Bool := do
  if !(← perform (.beginCopy path) (fun dir => (true, dir.writeApp path (env.part path))) false) then
    return false
  else
    perform (.finishCopy path) (fun dir => (true, dir.writeApp path content)) false

/-- One entry of C++ `CopyDirectoryContents`, with whether it throws nothing -/
def copyEntry (env : Installation) (entry : RelPath × Bool) : InstallProgram Bool := do
  if hasDots entry.1 then
    return true
  else if entry.2 then
    perform (.createFolder entry.1) (fun dir => (true, dir)) false
  else
    match ← read fun dir => dir.temp (env.sourceDir ++ entry.1) with
    | none => return true
    | some content =>
      if !(← perform (.createParent entry.1) (fun dir => (true, dir)) false) then
        return false
      else if ← read fun dir => entry.1 == configToml && (dir.app entry.1).isSome then
        return true
      else
        copyFile env entry.1 content

/-- Step 5a: the TSF DLL, when the archive has one. -/
def replaceTsfDll (env : Installation) : InstallProgram Unit := do
  match ← read fun dir => dir.temp (env.sourceDir ++ [tsfDllFilename]) with
  | none => return ()
  | some new =>
    zoom .replace InstallDir.dlls InstallDir.withDlls
      (HandleTsfDllReplace { env.replacement with new })
    perform .dropNewDll (fun dir => ((), { dir with
      temp := Function.update dir.temp (env.sourceDir ++ [tsfDllFilename]) none })) ()

/-- Steps 4 to 7. That the copying has failed is not looked at. -/
def copyUpdate (env : Installation) : InstallProgram Unit := do
  replaceTsfDll env
  let _ ← untilFalse (copyEntry env) env.entries
  perform .removeTemp (fun dir => ((), { dir with temp := fun _ => none })) ()

/-- C++ `RunUpdateInstaller` -/
def RunUpdateInstaller (env : Installation) : InstallProgram Unit := do
  if ← prepareUpdate env then
    copyUpdate env
  else
    rollBackUpdate env

section Installer

variable {env : Installation} {fate : InstallOp → Fate} {before dir : InstallDir} {own : RelPath → Prop}
  {name : FileName} {path : RelPath} {content c : Bytes}

/-- Each file is in its place, or has left it for `_old_version`. -/
def Saved (own : RelPath → Prop) (before dir : InstallDir) : Prop :=
  ∀ path c, before.app path = some c → ¬own path →
    dir.app path = some c ∨ ∃ name, path = [name] ∧ dir.app path = none ∧ dir.old name = some c

/-- A step that touches only the installer's own files. -/
lemma Saved.frame {dir' : InstallDir} (h : Saved own before dir)
    (happ : ∀ path, ¬own path → dir'.app path = dir.app path) (hold : dir'.old = dir.old) :
    Saved own before dir' := by
  intro path c hc hown
  rw [happ path hown, hold]
  exact h path c hc hown

/-- One of its own files is removed. -/
lemma Saved.removeApp (h : Saved own before dir) (hown : own path) :
    Saved own before (dir.removeApp path) :=
  h.frame (fun other hother => Function.update_of_ne
    (fun heq : other = path => hother (heq.symm ▸ hown)) _ _) rfl

/-- One of its own files is written. -/
lemma Saved.writeApp (h : Saved own before dir) (hown : own path) :
    Saved own before (dir.writeApp path content) :=
  h.frame (fun other hother => Function.update_of_ne
    (fun heq : other = path => hother (heq.symm ▸ hown)) _ _) rfl

/-- A file that is still in its place has nothing to lose in `_old_version`. -/
lemma Saved.removeOld (h : Saved own before dir) (hname : dir.app [name] ≠ none) :
    Saved own before (dir.removeOld name) := by
  intro path c hc hown
  refine (h path c hc hown).imp id fun ⟨other, hpath, hnone, hold⟩ => ⟨other, hpath, hnone, ?_⟩
  have hne : other ≠ name := fun heq => hname (heq ▸ hpath ▸ hnone)
  exact (Function.update_of_ne hne _ _).trans hold

/-- A file is set aside. -/
lemma Saved.setAside (h : Saved own before dir) : Saved own before (dir.setAside name) := by
  unfold InstallDir.setAside
  split
  · next hfree =>
    intro path c hc hown
    by_cases hpath : path = [name]
    · subst hpath
      obtain hsome | ⟨other, hother, -, hold⟩ := h [name] c hc hown
      · exact .inr ⟨name, rfl, by simp, by simp [hsome]⟩
      · obtain rfl : name = other := by simpa using hother
        exact absurd (hfree.2.symm.trans hold) nofun
    · refine (h path c hc hown).imp (fun hsome => ?_) fun ⟨other, hother, hnone, hold⟩ => ?_
      · exact (Function.update_of_ne hpath _ _).trans hsome
      · have hne : other ≠ name := fun heq => hpath (heq ▸ hother)
        exact ⟨other, hother, (Function.update_of_ne hpath _ _).trans hnone,
          (Function.update_of_ne hne _ _).trans hold⟩
  · exact h

/-- Setting a file aside loses none. -/
lemma triple_setAsideFile :
    Triple fate (Saved own before) (setAsideFile name) (fun _ => Saved own before)
      (Saved own before) := by
  refine .bind (Q := fun there dir => Saved own before dir ∧ (there = true → dir.app [name] ≠ none))
    (.read fun dir h => ⟨h, fun hsome => Option.isSome_iff_ne_none.1 hsome⟩) fun there => ?_
  refine .ite (fun hthere => ?_) fun _ => .pure fun _ h => h.1
  refine .bind (Q := fun _ => Saved own before) ?_ fun _ => .keep fun _ h => h.setAside
  exact .perform (fun _ _ h => h.1.removeOld (h.2 ((Bool.and_eq_true _ _).mp hthere).1))
    (fun _ _ h => h.1) fun _ _ h => h.1

/-- The files of the update itself. -/
def updateFiles : List RelPath := [[tsfDllPending], [tsfDllPendingMarker], [updateFailed]]

/-- What is unpacked is the archive, as far as it is still there. -/
def Unpacked (env : Installation) (dir : InstallDir) : Prop :=
  ∀ path content, dir.temp path = some content → env.archive path = some content

/-- The preparation loses none. -/
lemma triple_prepareUpdate (hown : ∀ path ∈ updateFiles, own path) :
    Triple fate (Saved own before) (prepareUpdate env)
      (fun unpacked dir => Saved own before dir ∧ (unpacked = true → Unpacked env dir))
      (Saved own before) := by
  refine .bind (.keep fun _ h => h.removeApp (hown _ (by simp [updateFiles]))) fun _ => ?_
  refine .bind (.keep fun _ h => h.removeApp (hown _ (by simp [updateFiles]))) fun _ => ?_
  refine .bind (.keep fun _ h => h.frame (fun _ _ => rfl) rfl) fun _ => ?_
  refine .bind (.each (I := fun _ => Saved own before) (fun _ _ => triple_setAsideFile) _) fun _ => ?_
  refine .bind (.keep fun _ h => h.frame (fun _ _ => rfl) rfl) fun _ => ?_
  refine .bind (.keep fun _ h => h.frame (fun _ _ => rfl) rfl) fun _ => ?_
  exact .perform (fun _ _ h => ⟨h.frame (fun _ _ => rfl) rfl, fun _ _ _ => id⟩)
    (fun _ _ h => ⟨h, nofun⟩) fun _ _ => id

/-- Every file that has left its place is among those the rollback has still to come to. -/
def Returning (own : RelPath → Prop) (before : InstallDir) (names : List FileName) (dir : InstallDir) :
    Prop :=
  ∀ path c, before.app path = some c → ¬own path →
    dir.app path = some c ∨
      ∃ name ∈ names, path = [name] ∧ dir.app path = none ∧ dir.old name = some c

/-- The rollback does not touch a file that is in its place. -/
lemma restore_keeps (h : dir.app path = some c) : (dir.restore name).app path = some c := by
  unfold InstallDir.restore
  split
  · next hfree =>
    have hne : path ≠ [name] := fun heq => absurd ((heq ▸ h).symm.trans hfree) nofun
    exact (Function.update_of_ne hne _ _).trans h
  · exact h

/-- A file that has left its place is brought back, if the rollback is at its name. -/
lemma restore_moves {other : FileName} (hnone : dir.app [other] = none) (hold : dir.old other = some c) :
    (dir.restore name).app [other] = some c ∨
      other ≠ name ∧ (dir.restore name).app [other] = none ∧ (dir.restore name).old other = some c := by
  unfold InstallDir.restore
  by_cases heq : other = name
  · subst heq
    rw [if_pos hnone]
    exact .inl ((Function.update_self [other] _ _).trans hold)
  · have hpath : [other] ≠ [name] := by simpa using heq
    refine .inr ⟨heq, ?_⟩
    split
    · exact ⟨(Function.update_of_ne hpath _ _).trans hnone, (Function.update_of_ne heq _ _).trans hold⟩
    · exact ⟨hnone, hold⟩

/-- A file is moved back. -/
lemma Saved.restore (h : Saved own before dir) : Saved own before (dir.restore name) := by
  intro path c hc hown
  obtain hsome | ⟨other, rfl, hnone, hold⟩ := h path c hc hown
  · exact .inl (restore_keeps hsome)
  · exact (restore_moves hnone hold).imp id fun h => ⟨other, rfl, h.2⟩

/-- One file fewer is to be moved back. -/
lemma Returning.restore {names : List FileName} (h : Returning own before (name :: names) dir) :
    Returning own before names (dir.restore name) := by
  intro path c hc hown
  obtain hsome | ⟨other, hmem, rfl, hnone, hold⟩ := h path c hc hown
  · exact .inl (restore_keeps hsome)
  · refine (restore_moves hnone hold).imp id fun h => ?_
    exact ⟨other, (List.mem_cons.1 hmem).resolve_left h.1, rfl, h.2⟩

/-- A file that is moved back is in its place. -/
lemma triple_restoreFile {names : List FileName} (hrestore : fate (.restore name) = .done) :
    Triple fate (Returning own before (name :: names)) (restoreFile name)
      (fun _ => Returning own before names) fun _ => False := by
  refine .bind (Q := fun there dir => Returning own before (name :: names) dir ∧
    (there = false → dir.old name = none)) (.read fun dir h => ⟨h, by simp⟩) fun there => ?_
  cases there with
  | true =>
    rw [if_pos rfl]
    refine .perform (fun _ dir h => h.1.restore) (fun hop => ?_) fun hop => ?_
    · exact absurd (hrestore.symm.trans hop) nofun
    · exact absurd (hrestore.symm.trans hop) nofun
  | false =>
    rw [if_neg (by simp)]
    refine .pure fun dir h path c hc hown => ?_
    refine (h.1 path c hc hown).imp id fun ⟨other, hmem, hrest⟩ => ⟨other, ?_, hrest⟩
    refine (List.mem_cons.1 hmem).resolve_left fun heq => ?_
    rw [heq, h.2 rfl] at hrest
    exact absurd hrest.2.2 nofun

/-- An update whose archive does not unpack brings every file back to its place, whatever was refused
    before the rollback, when the rollback sees and moves what is in `_old_version`. -/
theorem rollback_restores (goesOn : ∀ op, fate op ≠ .stop) (hextract : fate .extract = .refused)
    (hlisting : ∀ name, (prepareUpdate env fate before).2.old name ≠ none → name ∈ env.oldListing)
    (hrestore : ∀ name, fate (.restore name) = .done)
    (hfile : before.app path = some c) (hpath : path ∉ updateFiles) :
    (RunUpdateInstaller env fate before).2.app path = some c := by
  have hstart : Saved (· ∈ updateFiles) before before := fun path c hc _ => .inl hc
  have hsaved : Saved (· ∈ updateFiles) before (prepareUpdate env fate before).2 :=
    ((triple_prepareUpdate fun _ => id).conseq (fun _ => id) (fun _ _ h => h.1) fun _ => id).run hstart
  -- the extraction is refused, so the rollback runs
  have hfails : Triple fate (fun _ => True) (prepareUpdate env) (fun unpacked _ => unpacked = false)
      fun _ => False := by
    have hpass {α : Type} {op : InstallOp} {effect : InstallDir → α × InstallDir} {failed : α} :
        Triple fate (fun _ => True) (perform op effect failed) (fun _ _ => True) fun _ => False :=
      .perform (fun _ _ => id) (fun _ _ => id) fun hop => absurd hop (goesOn _)
    have hset : ∀ name (names : List FileName), Triple fate (fun _ => True) (setAsideFile name)
        (fun _ _ => True) fun _ => False := fun name _ =>
      .bind (Q := fun _ _ => True) (.read fun _ => id) fun _ =>
        .ite (fun _ => .bind hpass fun _ => hpass) fun _ => .pure fun _ => id
    refine .bind hpass fun _ => .bind hpass fun _ => .bind hpass fun _ => ?_
    refine .bind (.each (I := fun _ _ => True) hset _) fun _ => .bind hpass fun _ => ?_
    refine .bind hpass fun _ => .perform (fun hop => ?_) (fun _ _ _ => rfl) fun hop => ?_
    · exact absurd (hextract.symm.trans hop) nofun
    · exact absurd hop (goesOn _)
  have hreturns : Triple fate (Returning (· ∈ updateFiles) before env.oldListing) (rollBackUpdate env)
      (fun _ => Returning (· ∈ updateFiles) before []) fun _ => False := by
    refine .bind (.each (fun name _ => triple_restoreFile (hrestore name)) _) fun _ => ?_
    refine .perform (fun _ dir h path c hc hown => ?_) (fun _ _ => id) fun hop => absurd hop (goesOn _)
    obtain hsome | ⟨name, hmem, -⟩ := h path c hc hown
    · have hne : path ≠ [updateFailed] := fun heq => hown (by simp [heq, updateFiles])
      exact .inl ((Function.update_of_ne hne _ _).trans hsome)
    · simp at hmem
  have hreturning : Returning (· ∈ updateFiles) before env.oldListing
      (prepareUpdate env fate before).2 := by
    intro path c hc hown
    refine (hsaved path c hc hown).imp id fun ⟨name, hpath, hnone, hold⟩ => ?_
    exact ⟨name, hlisting name (by simp [hold]), hpath, hnone, hold⟩
  have hrun : (RunUpdateInstaller env fate before).2 =
      (rollBackUpdate env fate (prepareUpdate env fate before).2).2 := by
    have hfalse := @hfails before trivial
    cases hprepare : prepareUpdate env fate before with
    | mk unpacked mid =>
      rw [hprepare] at hfalse
      cases unpacked with
      | none => exact hfalse.elim
      | some unpacked =>
        obtain rfl : unpacked = false := hfalse
        exact congrArg Prod.snd (bind_some hprepare)
  rw [hrun]
  obtain hsome | ⟨name, hmem, -⟩ := hreturns.result hreturning path c hfile hpath
  · exact hsome
  · simp at hmem

/-- The paths that the replacement of the TSF DLL and the rollback may write. -/
def isUpdatePath (path : RelPath) : Prop :=
  (∃ name, path = [name] ∧ tsfDllFilename <+: name) ∨ path = [tsfDllPendingMarker] ∨
    path = [updateFailed]

/-- Each file is in its place, or in `_old_version`, or the archive has one for its path. -/
def Kept (env : Installation) (before dir : InstallDir) : Prop :=
  ∀ path c, before.app path = some c → ¬isUpdatePath path →
    dir.app path = some c ∨ (∃ name, path = [name] ∧ dir.old name = some c) ∨
      ∃ new, env.archive (env.sourceDir ++ path) = some new ∧
        (dir.app path = some new ∨ dir.app path = some (env.part path))

/-- What is saved is kept. -/
lemma Saved.kept (h : Saved isUpdatePath before dir) : Kept env before dir := fun path c hc hown =>
  (h path c hc hown).imp id fun ⟨name, hpath, _, hold⟩ => .inl ⟨name, hpath, hold⟩

/-- A step that touches only the installer's own files. -/
lemma Kept.frame {dir' : InstallDir} (h : Kept env before dir)
    (happ : ∀ path, ¬isUpdatePath path → dir'.app path = dir.app path)
    (hold : ∀ name, ¬isUpdatePath [name] → dir'.old name = dir.old name) : Kept env before dir' := by
  intro path c hc hown
  rw [happ path hown]
  refine (h path c hc hown).imp id fun h => h.imp (fun ⟨name, hpath, hold'⟩ => ?_) id
  exact ⟨name, hpath, (hold name (hpath ▸ hown)).trans hold'⟩

/-- A copy writes only the path that the archive has a file for. -/
lemma Kept.writeApp {new : Bytes} (h : Kept env before dir)
    (hnew : env.archive (env.sourceDir ++ path) = some new)
    (hcontent : content = new ∨ content = env.part path) : Kept env before (dir.writeApp path content) := by
  intro other c hc hown
  by_cases hpath : other = path
  · subst hpath
    refine .inr (.inr ⟨new, hnew, ?_⟩)
    have hself : (dir.writeApp other content).app other = some content := Function.update_self ..
    rw [hself]
    exact hcontent.imp (congrArg some) (congrArg some)
  · have hsame : (dir.writeApp path content).app other = dir.app other := Function.update_of_ne hpath ..
    rw [hsame]
    exact h other c hc hown

/-- The replacement of the DLL touches its own files only. -/
lemma withDlls_app {dlls : ExeDir} (h : ¬isUpdatePath path) : (dir.withDlls dlls).app path = dir.app path := by
  have hlive : path ≠ [tsfDllFilename] := fun heq => h (.inl ⟨_, heq, List.prefix_rfl⟩)
  have hpending : path ≠ [tsfDllPending] := fun heq => h (.inl ⟨_, heq, List.prefix_append _ _⟩)
  have hmarker : path ≠ [tsfDllPendingMarker] := fun heq => h (.inr (.inl heq))
  simp [InstallDir.withDlls, hlive, hpending, hmarker]

/-- Also of those set aside. -/
lemma withDlls_old {dlls : ExeDir} (h : ¬isUpdatePath [name]) :
    (dir.withDlls dlls).old name = dir.old name := by
  have hname : ¬tsfDllFilename <+: name := fun hprefix => h (.inl ⟨name, rfl, hprefix⟩)
  simp [InstallDir.withDlls, hname]

/-- The copy of an entry keeps every file. -/
lemma triple_copyEntry {entry : RelPath × Bool} :
    Triple fate (fun dir => Kept env before dir ∧ Unpacked env dir) (copyEntry env entry)
      (fun _ dir => Kept env before dir ∧ Unpacked env dir)
      fun dir => Kept env before dir ∧ Unpacked env dir := by
  refine .ite (fun _ => .pure fun _ => id) fun _ => .ite (fun _ => .keep fun _ => id) fun _ => ?_
  refine .bind (Q := fun found dir => (Kept env before dir ∧ Unpacked env dir) ∧
    ∀ new, found = some new → env.archive (env.sourceDir ++ entry.1) = some new)
    (.read fun dir h => ⟨h, h.2 _⟩) fun found => ?_
  cases found with
  | none => exact .pure fun _ h => h.1
  | some new =>
    by_cases hnew : env.archive (env.sourceDir ++ entry.1) = some new
    · have hwrite {content : Bytes} (hcontent : content = new ∨ content = env.part entry.1)
          (dir : InstallDir) (h : Kept env before dir ∧ Unpacked env dir) :
          Kept env before (dir.writeApp entry.1 content) ∧ Unpacked env (dir.writeApp entry.1 content) :=
        ⟨h.1.writeApp hnew hcontent, h.2⟩
      have hcopy : Triple fate (fun dir => Kept env before dir ∧ Unpacked env dir)
          (copyFile env entry.1 new) (fun _ dir => Kept env before dir ∧ Unpacked env dir)
          fun dir => Kept env before dir ∧ Unpacked env dir :=
        .bind (.keep (hwrite (.inr rfl))) fun _ => .ite (fun _ => .pure fun _ => id)
          fun _ => .keep (hwrite (.inl rfl))
      refine Triple.conseq (.bind (.keep fun _ => id) fun _ => .ite (fun _ => .pure fun _ => id)
        fun _ => .bind (.read fun _ => id) fun _ => .ite (fun _ => .pure fun _ => id) fun _ => hcopy)
        (fun _ h => h.1) (fun _ _ => id) fun _ => id
    · exact fun dir h => absurd (h.2 new rfl) hnew

/-- So does the replacement of the DLL. -/
lemma triple_replaceTsfDll :
    Triple fate (fun dir => Kept env before dir ∧ Unpacked env dir) (replaceTsfDll env)
      (fun _ dir => Kept env before dir ∧ Unpacked env dir)
      fun dir => Kept env before dir ∧ Unpacked env dir := by
  refine .bind (Q := fun _ dir => Kept env before dir ∧ Unpacked env dir) (.read fun _ => id)
    fun found => ?_
  cases found with
  | none => exact .pure fun _ => id
  | some new =>
    refine .bind (.zoom fun dir dlls h => ⟨h.1.frame ?_ ?_, h.2⟩) fun _ => .keep fun dir h => ⟨?_, ?_⟩
    · exact fun _ => withDlls_app
    · exact fun _ => withDlls_old
    · exact h.1
    · intro path content hc
      dsimp only at hc
      rw [Function.update_apply] at hc
      split at hc
      · cases hc
      · exact h.2 path content hc

/-- So does the whole copy. -/
lemma triple_copyUpdate :
    Triple fate (fun dir => Kept env before dir ∧ Unpacked env dir) (copyUpdate env)
      (fun _ => Kept env before) (Kept env before) := by
  refine Triple.conseq (.bind triple_replaceTsfDll fun _ =>
    .bind (.untilFalse (fun _ => triple_copyEntry) _) fun _ =>
      .keep fun dir h => ⟨h.1, fun path content hc => ?_⟩) (fun _ => id) (fun _ _ h => h.1) fun _ h => h.1
  exact absurd hc nofun

/-- The rollback keeps what is saved. -/
lemma triple_rollBackUpdate :
    Triple fate (Saved isUpdatePath before) (rollBackUpdate env) (fun _ => Saved isUpdatePath before)
      (Saved isUpdatePath before) := by
  refine .bind (.each (I := fun _ => Saved isUpdatePath before) (fun name _ => ?_) _)
    fun _ => .keep fun _ h => h.writeApp (.inr (.inr rfl))
  exact .bind (.read fun _ => id) fun _ => .ite (fun _ => .keep fun _ h => h.restore)
    fun _ => .pure fun _ => id

/-- In any run, refused and stopped anywhere, each file of the program is in its place, or in
    `_old_version`, or the archive has a file for its path, which is there, or a part of it. -/
theorem nothing_lost (hfile : before.app path = some c) (hpath : ¬isUpdatePath path) :
    (RunUpdateInstaller env fate before).2.app path = some c ∨
      (∃ name, path = [name] ∧ (RunUpdateInstaller env fate before).2.old name = some c) ∨
      ∃ new, env.archive (env.sourceDir ++ path) = some new ∧
        ((RunUpdateInstaller env fate before).2.app path = some new ∨
          (RunUpdateInstaller env fate before).2.app path = some (env.part path)) := by
  have hown : ∀ path ∈ updateFiles, isUpdatePath path := by
    intro path h
    simp only [updateFiles, List.mem_cons, List.not_mem_nil, or_false] at h
    obtain rfl | rfl | rfl := h
    · exact .inl ⟨_, rfl, List.prefix_append _ _⟩
    · exact .inr (.inl rfl)
    · exact .inr (.inr rfl)
  have hprepare : Triple fate (Saved isUpdatePath before) (prepareUpdate env)
      (fun unpacked dir => Saved isUpdatePath before dir ∧ (unpacked = true → Unpacked env dir))
      (Kept env before) :=
    (triple_prepareUpdate hown).conseq (fun _ => id) (fun _ _ => id) fun _ h => h.kept
  have hrun : Triple fate (Saved isUpdatePath before) (RunUpdateInstaller env)
      (fun _ => Kept env before) (Kept env before) := by
    refine .bind hprepare fun unpacked => .ite (fun hunpacked => ?_) fun _ => ?_
    · exact triple_copyUpdate.conseq (fun _ h => ⟨h.1.kept, h.2 hunpacked⟩) (fun _ _ => id) fun _ => id
    · exact triple_rollBackUpdate.conseq (fun _ h => h.1) (fun _ _ h => h.kept) fun _ h => h.kept
  exact hrun.run (fun path c hc _ => .inl hc) path c hfile hpath

/-- The configuration is what it was. -/
def HasConfig (c : Bytes) (dir : InstallDir) : Prop := dir.app configToml = some c

/-- A step that does not touch the configuration. -/
lemma HasConfig.frame {dir' : InstallDir} (h : HasConfig c dir)
    (hsame : dir'.app configToml = dir.app configToml) : HasConfig c dir' := hsame.trans h

/-- Another file is written. -/
lemma HasConfig.writeApp (h : HasConfig c dir) (hpath : path ≠ configToml) :
    HasConfig c (dir.writeApp path content) := h.frame (Function.update_of_ne hpath.symm _ _)

/-- Another file is removed. -/
lemma HasConfig.removeApp (h : HasConfig c dir) (hpath : path ≠ configToml) :
    HasConfig c (dir.removeApp path) := h.frame (Function.update_of_ne hpath.symm _ _)

/-- The configuration is not a program. -/
lemma HasConfig.setAside (h : HasConfig c dir) (hname : isProgram name = true) :
    HasConfig c (dir.setAside name) := by
  unfold InstallDir.setAside
  split
  · refine h.frame (Function.update_of_ne (fun heq => ?_) _ _)
    obtain rfl : "config.toml".toList = name := by simpa [configToml] using heq
    exact absurd hname (by decide)
  · exact h

/-- A file that is there is not moved over. -/
lemma HasConfig.restore (h : HasConfig c dir) : HasConfig c (dir.restore name) := by
  unfold InstallDir.restore
  split
  · next hfree =>
    refine h.frame (Function.update_of_ne (fun heq => ?_) _ _)
    exact absurd ((heq ▸ h : dir.app [name] = some c).symm.trans hfree) nofun
  · exact h

/-- The preparation leaves the configuration. -/
lemma config_prepareUpdate :
    Triple fate (HasConfig c) (prepareUpdate env) (fun _ => HasConfig c) (HasConfig c) := by
  have hfile (name : FileName) (_ : List FileName) :
      Triple fate (HasConfig c) (setAsideFile name) (fun _ => HasConfig c) (HasConfig c) := by
    refine .bind (.read fun _ => id) fun there => .ite (fun hprogram => ?_) fun _ => .pure fun _ => id
    refine .bind (.keep fun _ => id) fun _ => .keep fun _ h => h.setAside ?_
    exact ((Bool.and_eq_true _ _).mp hprogram).2
  refine .bind (.keep fun _ h => h.removeApp (by decide)) fun _ => ?_
  refine .bind (.keep fun _ h => h.removeApp (by decide)) fun _ => .bind (.keep fun _ => id) fun _ => ?_
  refine .bind (.each (I := fun _ => HasConfig c) hfile _) fun _ => .bind (.keep fun _ => id) fun _ => ?_
  exact .bind (.keep fun _ => id) fun _ => .keep fun _ => id

/-- The configuration is passed over. -/
lemma config_copyEntry {entry : RelPath × Bool} :
    Triple fate (HasConfig c) (copyEntry env entry) (fun _ => HasConfig c) (HasConfig c) := by
  refine .ite (fun _ => .pure fun _ => id) fun _ => .ite (fun _ => .keep fun _ => id) fun _ => ?_
  refine .bind (Q := fun _ => HasConfig c) (.read fun _ => id) fun found => ?_
  cases found with
  | none => exact .pure fun _ => id
  | some new =>
    refine .bind (.keep fun _ => id) fun _ => .ite (fun _ => .pure fun _ => id) fun _ => ?_
    refine .bind (Q := fun skips dir => HasConfig c dir ∧ (skips = false → entry.1 ≠ configToml))
      (.read fun dir h => ⟨h, fun hskips heq => ?_⟩) fun skips => ?_
    · rw [heq, h] at hskips
      exact absurd hskips (by simp)
    cases skips with
    | true => exact .pure fun _ h => h.1
    | false =>
      rw [if_neg (by simp)]
      by_cases hpath : entry.1 = configToml
      · exact fun dir h => absurd hpath (h.2 rfl)
      · refine Triple.conseq (.bind (.keep fun _ h => h.writeApp hpath) fun _ =>
          .ite (fun _ => .pure fun _ => id) fun _ => .keep fun _ h => h.writeApp hpath)
          (fun _ h => h.1) (fun _ _ => id) fun _ => id

/-- No run changes the configuration that it finds. -/
theorem config_kept (hconfig : before.app configToml = some c) :
    (RunUpdateInstaller env fate before).2.app configToml = some c := by
  have hdll : Triple fate (HasConfig c) (replaceTsfDll env) (fun _ => HasConfig c) (HasConfig c) := by
    refine .bind (Q := fun _ => HasConfig c) (.read fun _ => id) fun found => ?_
    cases found with
    | none => exact .pure fun _ => id
    | some new =>
      refine .bind (.zoom fun _ _ h => h.frame (withDlls_app ?_)) fun _ => .keep fun _ => id
      rintro (⟨name, hname, hprefix⟩ | hmarker | hfailed)
      · obtain rfl : "config.toml".toList = name := by simpa [configToml] using hname
        exact absurd hprefix (by decide)
      · exact absurd hmarker (by decide)
      · exact absurd hfailed (by decide)
  have hcopy : Triple fate (HasConfig c) (copyUpdate env) (fun _ => HasConfig c) (HasConfig c) :=
    .bind hdll fun _ => .bind (.untilFalse (fun _ => config_copyEntry) _) fun _ => .keep fun _ => id
  have hroll : Triple fate (HasConfig c) (rollBackUpdate env) (fun _ => HasConfig c) (HasConfig c) := by
    refine .bind (.each (I := fun _ => HasConfig c) (fun name _ => ?_) _)
      fun _ => .keep fun _ h => h.writeApp (by decide)
    exact .bind (.read fun _ => id) fun _ => .ite (fun _ => .keep fun _ h => h.restore)
      fun _ => .pure fun _ => id
  have hrun : Triple fate (HasConfig c) (RunUpdateInstaller env) (fun _ => HasConfig c) (HasConfig c) :=
    .bind config_prepareUpdate fun _ => .ite (fun _ => hcopy) fun _ => hroll
  exact hrun.run hconfig

end Installer

section Examples

def vkeyExe : FileName := "vkey.exe".toList

/-- A program with its configuration, and no DLL. -/
def oneProgram : InstallDir where
  app path := if path = [vkeyExe] then some [1] else if path = configToml then some [7] else none
  old _ := none
  temp _ := none
  hasOldDir := false

/-- An archive with a new program and a configuration of its own. -/
def newProgram : Installation where
  listing := [vkeyExe, "config.toml".toList]
  oldListing := [vkeyExe]
  archive path := if path = [vkeyExe] then some [2, 3] else if path = configToml then some [8] else none
  extracted _ := none
  topLevel := [(vkeyExe, false), ("config.toml".toList, false)]
  entries := [(configToml, false), ([vkeyExe], false)]
  part _ := [2]
  replacement := abcUpdate
  plain := by decide

/-- The archive does not unpack. -/
def badArchive : InstallOp → Fate := fun op => if op = .extract then .refused else .done

/-- An archive that does not unpack. -/
theorem rollback_restores_program :
    (RunUpdateInstaller newProgram badArchive oneProgram).2.app [vkeyExe] = some [1] := by
  refine @rollback_restores newProgram badArchive oneProgram [vkeyExe] [1] ?_ rfl ?_ ?_ (by decide)
    (by decide)
  · intro op
    unfold badArchive
    split
    · exact nofun
    · exact nofun
  · intro name hname
    by_contra hother
    refine hname ?_
    have hne : name ≠ vkeyExe := fun heq => hother (by simp [heq, newProgram])
    have hold : (prepareUpdate newProgram badArchive oneProgram).2.old =
        Function.update (Function.update (fun _ => none) vkeyExe none) vkeyExe (some [1]) := rfl
    rw [hold, Function.update_of_ne hne, Function.update_of_ne hne]
  · exact fun name => rfl

/-- The process stops while the new program is copied. -/
def cutCopy : InstallOp → Fate := fun op => if op = .finishCopy [vkeyExe] then .stop else .done

/-- A copy that is cut off. -/
theorem nothing_lost_cut :
    (RunUpdateInstaller newProgram cutCopy oneProgram).2.app [vkeyExe] = some [1] ∨
      (∃ name, [vkeyExe] = [name] ∧
        (RunUpdateInstaller newProgram cutCopy oneProgram).2.old name = some [1]) ∨
      ∃ new, newProgram.archive (newProgram.sourceDir ++ [vkeyExe]) = some new ∧
        ((RunUpdateInstaller newProgram cutCopy oneProgram).2.app [vkeyExe] = some new ∨
          (RunUpdateInstaller newProgram cutCopy oneProgram).2.app [vkeyExe] =
            some (newProgram.part [vkeyExe])) := by
  refine @nothing_lost newProgram cutCopy oneProgram [vkeyExe] [1] (by decide) ?_
  rintro (⟨name, hname, hprefix⟩ | hmarker | hfailed)
  · obtain rfl : vkeyExe = name := by simpa using hname
    exact absurd hprefix (by decide)
  · exact absurd hmarker (by decide)
  · exact absurd hfailed (by decide)

/-- An update that gets through. -/
theorem config_kept_copied :
    (RunUpdateInstaller newProgram (fun _ => .done) oneProgram).2.app configToml = some [7] :=
  config_kept (by decide)

end Examples

end NextKey
