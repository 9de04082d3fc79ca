import RomStrings.Main
import RomStrings.Proofs.Assembly.Replaced
import RomStrings.Proofs.Scan.Blocks
import RomStrings.Proofs.Scan.Conservation
import RomStrings.Proofs.Scan.Region
import RomStrings.Proofs.Scan.Layout
import RomStrings.Proofs.Scan.Sections
import RomStrings.Proofs.Rom.Image
import RomStrings.Proofs.Rom.Occurrences
import RomStrings.Proofs.Scan.Addresses
import RomStrings.Proofs.Scan.Quiet
import RomStrings.Proofs.Scan.Stray
import RomStrings.Proofs.Scan.Again
import RomStrings.Proofs.Repetition
import RomStrings.Proofs.Scan.Outcome
import RomStrings.Proofs.Scan.Alike
import RomStrings.Proofs.Counts
import RomStrings.Proofs.Labels
import RomStrings.Proofs.Scan.Joining
import RomStrings.Proofs.Scan.OutputLines
import RomStrings.Proofs.Rom.Keys
import RomStrings.Proofs.Scan.Tables
import RomStrings.Proofs.Passes
import RomStrings.Proofs.Assembly.References
import RomStrings.Proofs.Scan.Characters
import RomStrings.Proofs.Text.Latin1
import RomStrings.Proofs.FailedJobs
import RomStrings.Proofs.Scan.Registers
import RomStrings.Proofs.Scan.SectionsKept
import RomStrings.Proofs.Relocation
import RomStrings.Proofs.DoneJobs
import RomStrings.Proofs.Scan.LeftAlone
import RomStrings.Proofs.Scan.Lookahead
import RomStrings.Proofs.Scan.Objects
import RomStrings.Proofs.Escape.Grammar
import RomStrings.Proofs.Escape.Spellings
import RomStrings.Proofs.Escape.Joining
import RomStrings.Proofs.Scan.Faults
import RomStrings.Proofs.Assembly.Payloads
import RomStrings.Proofs.FaultReports
import RomStrings.Proofs.Escape.Quoting
import RomStrings.Proofs.Rom.Index
import RomStrings.Proofs.Scan.Truncation
import RomStrings.Proofs.Scan.Tally
import RomStrings.Proofs.Scan.Readings
import RomStrings.Proofs.FramedOutput
import RomStrings.Proofs.Assembly.ReferencePasses
import RomStrings.Proofs.Reuse
import RomStrings.Proofs.AddressSpellings
import RomStrings.Proofs.Rom.Partition
