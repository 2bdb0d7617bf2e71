import Risc16.Main
import Risc16.Output.Reader
import Risc16.Proofs.Acceptance
import Risc16.Proofs.BuildOutcome
import Risc16.Proofs.LabelBinding
import Risc16.Proofs.RoundTrip
import Risc16.Proofs.Cutting
import Risc16.Proofs.Spelling
import Risc16.Proofs.FirstFault
import Risc16.Proofs.FaultPlace
import Risc16.Proofs.CheckedReading
import Risc16.Proofs.CheckedRun
import Risc16.Proofs.Printing
import Risc16.Proofs.SourceNumbers
import Risc16.Proofs.Reprint
import Risc16.Proofs.LineLayout
import Risc16.Proofs.Relocation
import Risc16.Proofs.FailedAssembly
import Risc16.Proofs.SameProgram
import Risc16.Proofs.LooserSettings
import Risc16.Proofs.FileWriting
import Risc16.Proofs.JobRuns
import Risc16.Proofs.WrittenFiles
import Risc16.Proofs.PathLookup
import Risc16.Proofs.Requests
import Risc16.Proofs.SparedFiles
import Risc16.Proofs.ExitCode
import Risc16.Proofs.LinkedProgram
import Risc16.Proofs.Seam
import Risc16.Proofs.BadWord
import Risc16.Proofs.Spacing
import Risc16.Proofs.Interleaving
import Risc16.Proofs.ReportFaults
import Risc16.Proofs.RaisedReports
import Risc16.Proofs.FirstDeclaration
import Risc16.Proofs.KeptOutput
import Risc16.Proofs.LabelLines
import Risc16.Proofs.LineEnds
import Risc16.Proofs.Columns
import Risc16.Proofs.Reports
import Risc16.Proofs.Suggestions
