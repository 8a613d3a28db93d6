import InterfaceSchema.Json.Parser
import InterfaceSchema.Main
import InterfaceSchema.Proofs.Document
import InterfaceSchema.Proofs.References
import InterfaceSchema.Proofs.Extension
import InterfaceSchema.Proofs.Declarations
import InterfaceSchema.Proofs.LetterCase
import InterfaceSchema.Proofs.Subschemas
import InterfaceSchema.Proofs.TypeKeywords
import InterfaceSchema.Proofs.Pointers
import InterfaceSchema.Proofs.ListKeywords
import InterfaceSchema.Proofs.Lookups
import InterfaceSchema.Proofs.Revision
import InterfaceSchema.Proofs.Decoration
import InterfaceSchema.Proofs.Layout
import InterfaceSchema.Proofs.Shapes
import InterfaceSchema.Proofs.Omission
import InterfaceSchema.Proofs.EmptyTexts
import InterfaceSchema.Proofs.OmittedTexts
import InterfaceSchema.Proofs.Passing
import InterfaceSchema.Proofs.Grammar
import InterfaceSchema.Proofs.Numerals
import InterfaceSchema.Proofs.Literals
import InterfaceSchema.Proofs.Scalars
import InterfaceSchema.Proofs.Outlines
import InterfaceSchema.Proofs.TopValue
import InterfaceSchema.Proofs.WholeNumbers
import InterfaceSchema.Proofs.Printing
import InterfaceSchema.Proofs.Spellings
import InterfaceSchema.Proofs.Contents
import InterfaceSchema.Proofs.RoundTrip
import InterfaceSchema.Proofs.DocumentText
import InterfaceSchema.Proofs.Disks
import InterfaceSchema.Proofs.Runs
import InterfaceSchema.Proofs.Formats
import InterfaceSchema.Proofs.Targets
import InterfaceSchema.Proofs.LogLines
import InterfaceSchema.Proofs.Nearest
import InterfaceSchema.Proofs.Structs
import InterfaceSchema.Proofs.Writing
import InterfaceSchema.Proofs.Inlining
import InterfaceSchema.Proofs.Transparency
import InterfaceSchema.Proofs.Sessions
import InterfaceSchema.Proofs.ValueTexts
import InterfaceSchema.Proofs.FaultPaths
import InterfaceSchema.Proofs.Names
import InterfaceSchema.Proofs.Settings
