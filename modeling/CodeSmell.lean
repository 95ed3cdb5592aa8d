import CodeSmell.Main
import CodeSmell.Proofs.Syntax.Place
import CodeSmell.Proofs.Syntax.WellFormed
import CodeSmell.Proofs.Facts.Sites
import CodeSmell.Proofs.Facts.Tour
import CodeSmell.Proofs.Facts.References
import CodeSmell.Proofs.Project.UnreferencedDeclarations
import CodeSmell.Proofs.Facts.Context
import CodeSmell.Proofs.Project.UsedImports
import CodeSmell.Proofs.Facts.Loop
import CodeSmell.Proofs.Text.LastDot
import CodeSmell.Proofs.Project.Scopes
import CodeSmell.Proofs.FileSystem.Names
import CodeSmell.Proofs.Project.UnusedImports
import CodeSmell.Proofs.FileSystem.Walk
import CodeSmell.Proofs.Loader
import CodeSmell.Proofs.Facts.NamespaceForms
import CodeSmell.Proofs.Project.Respelled
import CodeSmell.Proofs.Scan.Agreement
import CodeSmell.Proofs.FileSystem.Locate
import CodeSmell.Proofs.FileSystem.Removal
import CodeSmell.Proofs.LoadedTexts
import CodeSmell.Proofs.Project.Composition
import CodeSmell.Proofs.Project.Growth
import CodeSmell.Proofs.Project.ReportOrder
import CodeSmell.Proofs.Scan.SenselessFiles
import CodeSmell.Proofs.Facts.Callables
import CodeSmell.Proofs.Facts.Numbers
import CodeSmell.Proofs.Facts.Remarks
import CodeSmell.Proofs.Project.ExtensionHosts
import CodeSmell.Proofs.CommandLine.Init
import CodeSmell.Proofs.CommandLine.ScanOutcome
import CodeSmell.Proofs.Report.Integrity
import CodeSmell.Proofs.Scan.FileByFile
import CodeSmell.Proofs.Text.Run
import CodeSmell.Proofs.Json.Written
import CodeSmell.Proofs.Report.RoundTrip
import CodeSmell.Proofs.Numeral.Digits
import CodeSmell.Proofs.Numeral.Nearest
import CodeSmell.Proofs.Numeral.Real
import CodeSmell.Proofs.Numeral.Integer
import CodeSmell.Proofs.Facts.Signs
import CodeSmell.Proofs.Facts.Declarers
import CodeSmell.Proofs.Facts.PatternVariables
import CodeSmell.Proofs.Facts.Variables
import CodeSmell.Proofs.Facts.AttributeNames
import CodeSmell.Proofs.Project.Aliases
import CodeSmell.Proofs.Project.NamespaceSpelling
import CodeSmell.Proofs.Syntax.Lines
import CodeSmell.Proofs.Facts.DeclarationOrder
import CodeSmell.Proofs.Facts.Deconstruction
import CodeSmell.Proofs.Facts.LiteralOrder
import CodeSmell.Proofs.Project.Options
import CodeSmell.Proofs.Naming
import CodeSmell.Proofs.FileSystem.Below
import CodeSmell.Proofs.Report.RelativeUri
import CodeSmell.Proofs.Yaml.Fields
import CodeSmell.Proofs.Settings.Fields
import CodeSmell.Proofs.Settings.Overlay
