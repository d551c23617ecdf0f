import DolphinRe.LateReplies
import DolphinRe.ModifyAtomicity
import DolphinRe.ArmedRegistry
import DolphinRe.ConnectionState
import DolphinRe.HandOver
import DolphinRe.PausedTarget
import DolphinRe.BreakpointPackets
import DolphinRe.StreamDecoding
import DolphinRe.WatcherSurvival
import DolphinRe.StepReports
import DolphinRe.ContainedErrors
import DolphinRe.ModifyContext
import DolphinRe.ConnectionCycles
import DolphinRe.FailedConnects
import DolphinRe.TemporaryPoints
import DolphinRe.MemoryBackends
import DolphinRe.HexNumerals
import DolphinRe.DataReplies
import DolphinRe.Substrings
import DolphinRe.StopReplyFields
import DolphinRe.MemorySearch
import DolphinRe.MemoryDumps
import DolphinRe.HitAttribution
import DolphinRe.SymbolLookup
import DolphinRe.MapFileText
import DolphinRe.ExactReads
import DolphinRe.MnemonicKinds
import DolphinRe.AddressTexts
import DolphinRe.Slices
import DolphinRe.HexDumps
import DolphinRe.SectionLayouts
import DolphinRe.PpcOperands
import DolphinRe.PpcDisassembly
import DolphinRe.ImmediatePairs
import DolphinRe.PairClobbers
import DolphinRe.SteppedTarget
import DolphinRe.StackWalks
import DolphinRe.StepFallbacks
import DolphinRe.TraceTools
import DolphinRe.InstructionTraces
import DolphinRe.RunToStop
import DolphinRe.CapturedHits
import DolphinRe.RegistryHistory
import DolphinRe.TracedHits
import DolphinRe.RegionWalk
import DolphinRe.DebugSession
import DolphinRe.StoredMemory
