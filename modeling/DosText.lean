import DosText.Agenda.Errand
import DosText.Application
import DosText.Command.Printer
import DosText.Host.Stream
import DosText.Main
import DosText.Proofs.FileCommands
import DosText.Proofs.FileView
import DosText.Proofs.PrintedText
import DosText.Proofs.SessionFaults
import DosText.Proofs.StoreFaults
import DosText.Script.Computer
import DosText.Storage.Outage
import DosText.Proofs.SequentialFile
import DosText.Proofs.RecordFile
import DosText.Proofs.AgendaWork
import DosText.Proofs.Deliveries
import DosText.Proofs.TracedPrograms
import DosText.Proofs.Reopening
import DosText.Proofs.FirstContents
import DosText.Proofs.ScriptRuns
import DosText.Proofs.ReadingOnly
import DosText.Proofs.Places
import DosText.Proofs.Confinement
import DosText.Proofs.FolderStore
import DosText.Proofs.WholeFiles
import DosText.Proofs.SpelledCommands
import DosText.Proofs.DeletedFiles
import DosText.Proofs.CommandGrammar
import DosText.Proofs.WrittenText
import DosText.Proofs.LineSegments
import DosText.Proofs.ClosingOrder
import DosText.Proofs.Positions
import DosText.Proofs.AppendedText
import DosText.Proofs.ErrandOrder
import DosText.Proofs.ErrandLevels
import DosText.Proofs.SeedReadings
import DosText.Proofs.FoldedLines
import DosText.Proofs.HostNameGrammar
import DosText.Proofs.LostDirectory
