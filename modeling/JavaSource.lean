import JavaSource.Proofs.ArrayRows
import JavaSource.Proofs.BudgetCut
import JavaSource.Proofs.ByteOrder
import JavaSource.Proofs.FaultPrecedence
import JavaSource.Proofs.FinalFields
import JavaSource.Proofs.LiteralReading
import JavaSource.Proofs.Nesting
import JavaSource.Proofs.OptionsGrammar
import JavaSource.Proofs.RejectedParts
import JavaSource.Proofs.TableReading
import JavaSource.Proofs.UniqueReading
import JavaSource.Proofs.Validation
import JavaSource.Proofs.WriterSteps
import JavaSource.Workbench
import JavaSource.Proofs.CommentLines
import JavaSource.Proofs.Emptiness
import JavaSource.Proofs.BannerComment
import JavaSource.Proofs.Documentation
import JavaSource.Proofs.WrittenDocument
import JavaSource.Proofs.NormalOptions
import JavaSource.Proofs.CommentBlock
import JavaSource.Proofs.Drivers
import JavaSource.Proofs.FileSteps
import JavaSource.Proofs.PackedParts
import JavaSource.Proofs.CallCount
import JavaSource.Proofs.Slots
