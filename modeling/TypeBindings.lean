import TypeBindings.Main
import TypeBindings.Emitters
import TypeBindings.Proofs.Components
import TypeBindings.Proofs.DistinctKeys
import TypeBindings.Proofs.Grammar
import TypeBindings.Proofs.Marking
import TypeBindings.Proofs.RoundTrip
import TypeBindings.Proofs.FreeNames
import TypeBindings.Proofs.ImportBlocks
import TypeBindings.Proofs.JavaFiles
import TypeBindings.Proofs.Suppression
import TypeBindings.Proofs.Paths
import TypeBindings.Proofs.DiskFrame
import TypeBindings.Proofs.GeneratedNames
import TypeBindings.Proofs.Generation
import TypeBindings.Proofs.NameIndex
import TypeBindings.Proofs.Sites
import TypeBindings.Proofs.RepeatedNames
import TypeBindings.Proofs.Breaches
import TypeBindings.Proofs.Declarations
import TypeBindings.Proofs.Validation
import TypeBindings.Proofs.Ownership
import TypeBindings.Proofs.Appending
import TypeBindings.Proofs.SealedUnions
import TypeBindings.Proofs.Reports
import TypeBindings.Proofs.Verdict
import TypeBindings.Proofs.Walk
import TypeBindings.Proofs.DirectoryLoading
import TypeBindings.Proofs.MemberNames
import TypeBindings.Proofs.Identifiers
import TypeBindings.Proofs.EnumMembers
import TypeBindings.Proofs.FieldTypes
import TypeBindings.Proofs.Literals
import TypeBindings.Proofs.RecordLines
import TypeBindings.Proofs.FieldNames
import TypeBindings.Proofs.SharedFields
import TypeBindings.Proofs.FieldKeys
import TypeBindings.Proofs.WireNames
import TypeBindings.Proofs.BlockComments
import TypeBindings.Proofs.StrictLiterals
import TypeBindings.Proofs.Summaries
import TypeBindings.Proofs.TypeTexts
import TypeBindings.Proofs.DeclarationTexts
import TypeBindings.Proofs.Emissions
import TypeBindings.Proofs.Imports
import TypeBindings.Proofs.Indentation
import TypeBindings.Proofs.SafeNames
import TypeBindings.Proofs.SchemaPaths
import TypeBindings.Proofs.Registrations
import TypeBindings.Proofs.Precedence
