import ThemeLocales.Main
import ThemeLocales.Proofs.Document.Part
import ThemeLocales.Proofs.Document.Path
import ThemeLocales.Proofs.Project.Reconcile
import ThemeLocales.Proofs.Disk.Frame
import ThemeLocales.Proofs.Operation
import ThemeLocales.Proofs.Project.LocaleFile
import ThemeLocales.Proofs.Number.Digits
import ThemeLocales.Proofs.Number.Rounding
import ThemeLocales.Proofs.Number.Shortest
import ThemeLocales.Proofs.Number.Numeral
import ThemeLocales.Proofs.Json.Scalar
import ThemeLocales.Proofs.Document.Storable
import ThemeLocales.Proofs.Json.RoundTrip
import ThemeLocales.Proofs.Json.Storable
import ThemeLocales.Proofs.Document.Merge
import ThemeLocales.Proofs.Document.Expand
import ThemeLocales.Proofs.Document.Assign
import ThemeLocales.Proofs.Document.Fill
import ThemeLocales.Proofs.Template.KeyTable
import ThemeLocales.Proofs.Project.Frame
import ThemeLocales.Proofs.Project.Run
import ThemeLocales.Proofs.Project.Origin
import ThemeLocales.Proofs.Project.Finished
import ThemeLocales.Proofs.Document.Fixpoint
import ThemeLocales.Proofs.Disk.Shape
import ThemeLocales.Proofs.Project.Replay
import ThemeLocales.Proofs.Disk.Repeat
import ThemeLocales.Proofs.Project.Round
import ThemeLocales.Proofs.Project.Rest
import ThemeLocales.Proofs.Text.Search
import ThemeLocales.Proofs.Template.Region
import ThemeLocales.Proofs.Template.Segment
import ThemeLocales.Proofs.Template.KeyScan
import ThemeLocales.Proofs.Template.Occurrence
import ThemeLocales.Proofs.Document.Walk
import ThemeLocales.Proofs.Project.Atomic
import ThemeLocales.Proofs.Project.KeyStructure
import ThemeLocales.Proofs.Provider.Cache
import ThemeLocales.Proofs.Disk.View
import ThemeLocales.Proofs.Document.Completed
import ThemeLocales.Proofs.Project.Mirror
import ThemeLocales.Proofs.Project.Assignment
import ThemeLocales.Proofs.Project.Resume
import ThemeLocales.Proofs.Project.Independence
import ThemeLocales.Proofs.Project.Cleaning
import ThemeLocales.Proofs.Project.Pairing
import ThemeLocales.Proofs.Project.ReadBack
import ThemeLocales.Proofs.Template.Default
import ThemeLocales.Proofs.Disk.WellFormed
import ThemeLocales.Proofs.Disk.Listing
import ThemeLocales.Proofs.Disk.Walk
import ThemeLocales.Proofs.Project.Recording
import ThemeLocales.Proofs.Project.Collection
import ThemeLocales.Proofs.Document.Flatten
import ThemeLocales.Proofs.Project.SingleSource
import ThemeLocales.Proofs.Provider.Backoff
import ThemeLocales.Proofs.Provider.Attempts
import ThemeLocales.Proofs.Provider.CacheFile
import ThemeLocales.Proofs.Provider.Translate
import ThemeLocales.Proofs.Provider.Verdict
import ThemeLocales.Proofs.Text.Replace
import ThemeLocales.Proofs.Provider.Placeholder
import ThemeLocales.Proofs.Provider.Restore
import ThemeLocales.Proofs.Provider.LiveCache
import ThemeLocales.Proofs.Command.ExitCode
import ThemeLocales.Proofs.Document.MergePrune
import ThemeLocales.Proofs.Document.Stub
import ThemeLocales.Proofs.Document.Skeleton
import ThemeLocales.Proofs.Document.Layout
import ThemeLocales.Proofs.Template.Concatenation
import ThemeLocales.Proofs.Assoc
import ThemeLocales.Proofs.Number.Integer
import ThemeLocales.Proofs.Template.Argument
import ThemeLocales.Proofs.Template.NumberDefault
import ThemeLocales.Proofs.Template.Dash
import ThemeLocales.Proofs.Json.Step
import ThemeLocales.Proofs.Json.Grammar
import ThemeLocales.Proofs.Json.Lexical
import ThemeLocales.Proofs.Json.Strict
import ThemeLocales.Proofs.Template.SchemaBlock
import ThemeLocales.Proofs.Text.Units
import ThemeLocales.Proofs.Document.Order
import ThemeLocales.Proofs.Template.Partition
import ThemeLocales.Proofs.Provider.Entries
import ThemeLocales.Proofs.Provider.Brackets
import ThemeLocales.Proofs.Document.Update
import ThemeLocales.Proofs.Provider.CacheEntry
import ThemeLocales.Proofs.Number.Range
import ThemeLocales.Proofs.Provider.RetryDelay
import ThemeLocales.Proofs.Project.Written
import ThemeLocales.Proofs.Project.WellFormed
