import DriverHeader.Document.Printer
import DriverHeader.Main
import DriverHeader.Proofs.ReadBack
import DriverHeader.Proofs.ReadBackComposite
import DriverHeader.Proofs.DocumentRoundTrip
import DriverHeader.Proofs.IncludeOrder
import DriverHeader.Proofs.Letters
import DriverHeader.Proofs.FileStem
import DriverHeader.Proofs.PathJoin
import DriverHeader.Proofs.IncludePlacement
import DriverHeader.Proofs.CName
import DriverHeader.Proofs.Prototype
import DriverHeader.Proofs.HeaderLines
import DriverHeader.Proofs.CommandTable
import DriverHeader.Proofs.HeaderContent
import DriverHeader.Proofs.DirectoryCreation
import DriverHeader.Proofs.StagedFile
import DriverHeader.Proofs.EmissionEffect
import DriverHeader.Proofs.PlainDescent
import DriverHeader.Proofs.PlainHeader
import DriverHeader.Proofs.EmissionOrder
import DriverHeader.Proofs.JsonGrammar
import DriverHeader.Proofs.Spelling
import DriverHeader.Proofs.DocumentSpelling
import DriverHeader.Proofs.ReaderExtension
import DriverHeader.Proofs.SelfDelimiting
import DriverHeader.Proofs.NestingBound
import DriverHeader.Proofs.RoleInfluence
import DriverHeader.Proofs.CodeBrackets
import DriverHeader.Proofs.HeaderNesting
import DriverHeader.Proofs.ProcessingModes
import DriverHeader.Proofs.BatchRun
import DriverHeader.Proofs.CommandWords
import DriverHeader.Proofs.MacroNames
import DriverHeader.Proofs.HeaderPlace
import DriverHeader.Proofs.SharedStem
import DriverHeader.Proofs.SlotLayout
import DriverHeader.Proofs.ColumnLimit
import DriverHeader.Proofs.TypeSpelling
import DriverHeader.Proofs.ImportSet
import DriverHeader.Proofs.ParameterNames
import DriverHeader.Proofs.RefusedSpelling
import DriverHeader.Proofs.VersionNumbers
import DriverHeader.Proofs.InsertionRun
import DriverHeader.Proofs.SharedConstant
import DriverHeader.Proofs.SharedGuard
