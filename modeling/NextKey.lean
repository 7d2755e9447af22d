import NextKey.Config.AppLists
import NextKey.Config.EscMirror
import NextKey.Config.ListSettings
import NextKey.Config.Loading
import NextKey.Config.Persistence
import NextKey.Config.SectionSaves
import NextKey.Config.Sections
import NextKey.Config.TomlFileCache
import NextKey.Config.WideStrings
import NextKey.Convert.EncodedTransforms
import NextKey.Convert.QuickConvert
import NextKey.Convert.SequentialCycle
import NextKey.Convert.TextTransforms
import NextKey.Convert.UnitCase
import NextKey.Engine.AutoRestore
import NextKey.Engine.AutoUO
import NextKey.Engine.CanComplete
import NextKey.Engine.Caseless
import NextKey.Engine.CharState
import NextKey.Engine.CombinedMethod
import NextKey.Engine.Completion
import NextKey.Engine.Config
import NextKey.Engine.DoubleTone
import NextKey.Engine.EditClosed
import NextKey.Engine.Effects
import NextKey.Engine.Emptied
import NextKey.Engine.EnglishProtection
import NextKey.Engine.FittingMarks
import NextKey.Engine.Grammar
import NextKey.Engine.Growth
import NextKey.Engine.Helpers
import NextKey.Engine.InPlace
import NextKey.Engine.Letters
import NextKey.Engine.LiteralBackspace
import NextKey.Engine.MarkEscapes
import NextKey.Engine.Modifier
import NextKey.Engine.Phonology
import NextKey.Engine.Phonotactics
import NextKey.Engine.Prefixes
import NextKey.Engine.QuickUndo
import NextKey.Engine.RawHistory
import NextKey.Engine.RawIndex
import NextKey.Engine.Reachable
import NextKey.Engine.RuleRegistry
import NextKey.Engine.Seed
import NextKey.Engine.SeedRoundTrip
import NextKey.Engine.Shown
import NextKey.Engine.ShownMarks
import NextKey.Engine.SingleTone
import NextKey.Engine.Speculation
import NextKey.Engine.SpeculationParity
import NextKey.Engine.SpeculationVerdict
import NextKey.Engine.SpellExclusion
import NextKey.Engine.SpellState
import NextKey.Engine.State
import NextKey.Engine.StructuralVcv
import NextKey.Engine.Syllable
import NextKey.Engine.Tables
import NextKey.Engine.Tone
import NextKey.Engine.ToneCompleteness
import NextKey.Engine.ToneGates
import NextKey.Engine.TonePlacement
import NextKey.Engine.ToneRelocation
import NextKey.Engine.ToneTarget
import NextKey.Engine.ToneVerdict
import NextKey.Engine.Twins
import NextKey.Engine.Typing
import NextKey.Engine.Untoned
import NextKey.Engine.Validator
import NextKey.Hook.AlphaKey
import NextKey.Hook.AppEncoding
import NextKey.Hook.AppModeFlush
import NextKey.Hook.AppModeTable
import NextKey.Hook.AutoCap
import NextKey.Hook.CjkFocus
import NextKey.Hook.CleanHold
import NextKey.Hook.CodeTableChange
import NextKey.Hook.ComboPairing
import NextKey.Hook.CommitUndo
import NextKey.Hook.ConfigSync
import NextKey.Hook.DigitLedWord
import NextKey.Hook.EncodedWord
import NextKey.Hook.EscRestore
import NextKey.Hook.FeaturePipeline
import NextKey.Hook.Focus
import NextKey.Hook.FocusDrain
import NextKey.Hook.FocusSnapshot
import NextKey.Hook.ForcedVietnamese
import NextKey.Hook.FormulaSegment
import NextKey.Hook.GhostKeys
import NextKey.Hook.HijackDetector
import NextKey.Hook.HistoryReplay
import NextKey.Hook.HotkeyManager
import NextKey.Hook.IdleCadence
import NextKey.Hook.KeyDown
import NextKey.Hook.LiveConfig
import NextKey.Hook.Mailbox
import NextKey.Hook.MainThreadWorker
import NextKey.Hook.ModeDisplay
import NextKey.Hook.ModeTick
import NextKey.Hook.ModifierTaps
import NextKey.Hook.PhraseMacro
import NextKey.Hook.ReinstallBurst
import NextKey.Hook.ScreenAgreement
import NextKey.Hook.SmartSwitch
import NextKey.Hook.TableKey
import NextKey.Hook.ToggleMode
import NextKey.Hook.VirtualKeys
import NextKey.Hook.WorkerHandlers
import NextKey.Hook.WorkerResponse
import NextKey.Ipc.AnchorContent
import NextKey.Ipc.ConfigReload
import NextKey.Ipc.ContextAnchor
import NextKey.Ipc.FeatureFlags
import NextKey.Ipc.FlagUpdates
import NextKey.Ipc.MappedState
import NextKey.Ipc.ReloadAfterSaves
import NextKey.Ipc.ReloadInvariant
import NextKey.Ipc.ReloadStages
import NextKey.Ipc.SharedStateManager
import NextKey.Ipc.WriteEpoch
import NextKey.Lib.Batch
import NextKey.Lib.BitFlags
import NextKey.Lib.CrashLogic
import NextKey.Lib.EntryMap
import NextKey.Lib.Faults
import NextKey.Lib.Lists
import NextKey.Lib.Machine
import NextKey.Lib.NamedEvent
import NextKey.Lib.NatSet
import NextKey.Lib.PairCode
import NextKey.Lib.PluginRegistry
import NextKey.Lib.Quoted
import NextKey.Lib.Runs
import NextKey.Lib.Scan
import NextKey.Lib.Seqlock
import NextKey.Lib.Since
import NextKey.Lib.Toml
import NextKey.Lib.Utf16
import NextKey.Macro.Case
import NextKey.Macro.Delivery
import NextKey.Macro.EnglishMode
import NextKey.Macro.Erasure
import NextKey.Macro.LineStructure
import NextKey.Macro.MarkKeys
import NextKey.Output.ClipboardRestore
import NextKey.Output.CodeTableConverter
import NextKey.Output.CodeTableStrings
import NextKey.Output.CompoundDecomposition
import NextKey.Output.Dispatcher
import NextKey.Output.EditMessages
import NextKey.Output.Injector
import NextKey.Output.ReplaceOutcome
import NextKey.Output.RoundTrip
import NextKey.Output.SynthCounter
import NextKey.Output.UnitReading
import NextKey.Process.Watchdog
import NextKey.Process.WatchdogVerdict
import NextKey.Tsf.Agreement
import NextKey.Tsf.EngineController
import NextKey.Tsf.KeyEventSink
import NextKey.Tsf.Publication
import NextKey.Tsf.SessionFailures
import NextKey.Tsf.SettingsParity
import NextKey.Tsf.UndoKept
import NextKey.Tsf.UndoPhases
import NextKey.Tsf.UndoRun
import NextKey.Update.DllLanding
import NextKey.Update.DllReplace
import NextKey.Update.Installer
import NextKey.Update.PendingDllApply
import NextKey.Update.PowerShellQuoting
