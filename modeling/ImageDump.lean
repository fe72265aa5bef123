import ImageDump.Main
import ImageDump.Resource.Database
import ImageDump.Proofs.Alignment
import ImageDump.Proofs.Region
import ImageDump.Proofs.Layout
import ImageDump.Proofs.Reading
import ImageDump.Proofs.CopySection
import ImageDump.Proofs.CopyRun
import ImageDump.Proofs.Destination
import ImageDump.Proofs.PlannedRegions
import ImageDump.Proofs.MergedRegions
import ImageDump.Proofs.Shadowing
import ImageDump.Proofs.Store
import ImageDump.Proofs.Patch
import ImageDump.Proofs.Repatch
import ImageDump.Proofs.CopyFrame
import ImageDump.Proofs.Unavailable
import ImageDump.Proofs.Captured
import ImageDump.Proofs.Dump
import ImageDump.Proofs.StoredChecksum
import ImageDump.Proofs.HeaderOffsets
import ImageDump.Proofs.Loader
import ImageDump.Proofs.Trailer
import ImageDump.Proofs.Reparse
import ImageDump.Proofs.Rounds
import ImageDump.Proofs.Relocation
import ImageDump.Proofs.NamedData
import ImageDump.Proofs.ZeroFill
import ImageDump.Proofs.Growth
import ImageDump.Proofs.Packed
import ImageDump.Proofs.Redump
import ImageDump.Proofs.Idle
import ImageDump.Proofs.Failures
import ImageDump.Proofs.LoadAddress
import ImageDump.Proofs.Files
import ImageDump.Proofs.FileDump
import ImageDump.Proofs.Leftover
import ImageDump.Proofs.CopyOrder
import ImageDump.Proofs.PatchFrame
import ImageDump.Proofs.DebugPointers
import ImageDump.Proofs.ComposedRelocation
import ImageDump.Proofs.RelocationRange
import ImageDump.Proofs.Checksum
import ImageDump.Proofs.FileOrder
import ImageDump.Proofs.ParsedBytes
import ImageDump.Proofs.HeaderRoundTrip
import ImageDump.Proofs.OutputPath
import ImageDump.Proofs.CursorRun
import ImageDump.Proofs.DataTotals
import ImageDump.Proofs.ResourceLookup
import ImageDump.Proofs.AddressText
