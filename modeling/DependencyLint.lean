import DependencyLint.Analysis
import DependencyLint.Archive.Checksum
import DependencyLint.Archive.ClassNames
import DependencyLint.Archive.Extra
import DependencyLint.Archive.Inflate
import DependencyLint.Archive.Zip
import DependencyLint.Binary64.Basic
import DependencyLint.Binary64.Shortest
import DependencyLint.BuildModule
import DependencyLint.Command.Arguments
import DependencyLint.Command.Output
import DependencyLint.Command.Run
import DependencyLint.Coordinate
import DependencyLint.CustomCheck
import DependencyLint.Failure
import DependencyLint.FileSystem
import DependencyLint.FileTree
import DependencyLint.Finding
import DependencyLint.Glob
import DependencyLint.Json.Decode
import DependencyLint.Json.Document
import DependencyLint.Json.Token
import DependencyLint.Json.Value
import DependencyLint.Library
import DependencyLint.Main
import DependencyLint.Manifest
import DependencyLint.ModuleIndex
import DependencyLint.Path
import DependencyLint.Project
import DependencyLint.Proofs.Ambiguity
import DependencyLint.Proofs.Answers
import DependencyLint.Proofs.CheckEffects
import DependencyLint.Proofs.CoordinateTexts
import DependencyLint.Proofs.Declarations
import DependencyLint.Proofs.DeclaredAlike
import DependencyLint.Proofs.DirectRun
import DependencyLint.Proofs.EncodedManifest
import DependencyLint.Proofs.EncodedText
import DependencyLint.Proofs.History
import DependencyLint.Proofs.Ignoring
import DependencyLint.Proofs.Isolation
import DependencyLint.Proofs.Libraries
import DependencyLint.Proofs.LibraryContents
import DependencyLint.Proofs.LibraryNames
import DependencyLint.Proofs.LineEndings
import DependencyLint.Proofs.LineGrammar
import DependencyLint.Proofs.Matching
import DependencyLint.Proofs.Memory
import DependencyLint.Proofs.MergedLibraries
import DependencyLint.Proofs.Merging
import DependencyLint.Proofs.Names
import DependencyLint.Proofs.NestedArchives
import DependencyLint.Proofs.Patterns
import DependencyLint.Proofs.Placeholders
import DependencyLint.Proofs.ReadManifest
import DependencyLint.Proofs.Redeclared
import DependencyLint.Proofs.Regrouping
import DependencyLint.Proofs.RelativePaths
import DependencyLint.Proofs.Reordering
import DependencyLint.Proofs.Repair
import DependencyLint.Proofs.Replacements
import DependencyLint.Proofs.ReportLines
import DependencyLint.Proofs.ReportOrder
import DependencyLint.Proofs.RuleSelection
import DependencyLint.Proofs.Run
import DependencyLint.Proofs.SearchReach
import DependencyLint.Proofs.SourceListing
import DependencyLint.Proofs.SourceSearch
import DependencyLint.Proofs.Spellings
import DependencyLint.Proofs.StaticImports
import DependencyLint.Proofs.Supplier
import DependencyLint.Proofs.TreeChanges
import DependencyLint.Proofs.TreeWalk
import DependencyLint.Proofs.Twins
import DependencyLint.Proofs.UnguardedSearch
import DependencyLint.Proofs.UnusedLibraries
import DependencyLint.Proofs.UnusedModules
import DependencyLint.Proofs.WrittenJson
import DependencyLint.Reader
import DependencyLint.Report
import DependencyLint.Resolution
import DependencyLint.Rule
import DependencyLint.Session
import DependencyLint.Settings
import DependencyLint.Source
import DependencyLint.SourceFile
import DependencyLint.Text.Blank
import DependencyLint.Text.Keyword
import DependencyLint.Text.Printable
import DependencyLint.Text.Quoted
import DependencyLint.Text.Raw
import DependencyLint.Text.Replace
import DependencyLint.Text.Sorted
import DependencyLint.Text.Utf8
import DependencyLint.Toml.Document
import DependencyLint.Toml.Scalar
import DependencyLint.Toml.Text
import DependencyLint.Toml.Value
import DependencyLint.Usage
