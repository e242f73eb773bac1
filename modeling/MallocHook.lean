import MallocHook.Proofs.HeapMirror
import MallocHook.Proofs.AddressSpace
import MallocHook.Proofs.DmaAgreement
import MallocHook.Proofs.PeakCrossing
import MallocHook.Proofs.PeakRetention
import MallocHook.Proofs.PendingMark
import MallocHook.Proofs.PrimaryElection
import MallocHook.Proofs.PipelineRegistry
import MallocHook.Proofs.MarkerPairing
import MallocHook.Proofs.ModeDecision
import MallocHook.Proofs.SamplerStatistics
import MallocHook.Proofs.FreshMappings
import MallocHook.Proofs.PeakContext
import MallocHook.Proofs.Descendants
import MallocHook.Proofs.StripSelection
import MallocHook.Proofs.CsvAcceptance
import MallocHook.Proofs.UniqueRows
import MallocHook.Proofs.SnapshotTotals
import MallocHook.Proofs.RungReports
import MallocHook.Proofs.MappingResidency
import MallocHook.Proofs.ModuleBias
import MallocHook.Proofs.LongLines
import MallocHook.Proofs.SampleGrid
import MallocHook.Proofs.ModuleGenerations
import MallocHook.Proofs.FrameChain
import MallocHook.Proofs.EntryRouting
import MallocHook.Proofs.MergeOrder
import MallocHook.Proofs.SlicePairs
import MallocHook.Proofs.FrameExclusion
import MallocHook.Proofs.DumpTags
import MallocHook.Proofs.CodecRoundTrip
import MallocHook.Proofs.GpuRegions
