import ApiSurface.Annotations.Basic
import ApiSurface.Annotations.Classifier
import ApiSurface.Annotations.Filter
import ApiSurface.Annotations.FilterLists
import ApiSurface.Annotations.Showability
import ApiSurface.Annotations.VerdictCache
import ApiSurface.Codebase.Basic
import ApiSurface.Codebase.Builder
import ApiSurface.Codebase.Hierarchy
import ApiSurface.Codebase.Tables
import ApiSurface.Codebase.Traversal
import ApiSurface.Element.Basic
import ApiSurface.Element.Declaration
import ApiSurface.Element.Describe
import ApiSurface.Element.MatchKey
import ApiSurface.Element.Status
import ApiSurface.Error
import ApiSurface.Json.Basic
import ApiSurface.Json.Form
import ApiSurface.Json.Reader
import ApiSurface.Json.Record
import ApiSurface.Nullability
import ApiSurface.Options
import ApiSurface.Proofs.Annotations.FilterGrammar
import ApiSurface.Proofs.Annotations.Interning
import ApiSurface.Proofs.Annotations.Transparency
import ApiSurface.Proofs.Annotations.VerdictCache
import ApiSurface.Proofs.Codebase.Alignment
import ApiSurface.Proofs.Codebase.AllClasses
import ApiSurface.Proofs.Codebase.AnnotationOrder
import ApiSurface.Proofs.Codebase.ByName
import ApiSurface.Proofs.Codebase.Containment
import ApiSurface.Proofs.Codebase.History
import ApiSurface.Proofs.Codebase.Items
import ApiSurface.Proofs.Codebase.KeyRenaming
import ApiSurface.Proofs.Codebase.Nesting
import ApiSurface.Proofs.Codebase.Renumbering
import ApiSurface.Proofs.Codebase.Reordering
import ApiSurface.Proofs.Codebase.Steps
import ApiSurface.Proofs.Codebase.SuperClasses
import ApiSurface.Proofs.Codebase.Traversal
import ApiSurface.Proofs.Element.AnnotationSets
import ApiSurface.Proofs.Element.ClassNames
import ApiSurface.Proofs.Element.Hiding
import ApiSurface.Proofs.Element.Inheritance
import ApiSurface.Proofs.Element.Projection
import ApiSurface.Proofs.Element.Status
import ApiSurface.Proofs.Element.SuperClasses
import ApiSurface.Proofs.Options.Settings
import ApiSurface.Proofs.SignatureFormat.Header
import ApiSurface.Proofs.Text.Blank
import ApiSurface.Proofs.Text.Dotted
import ApiSurface.Proofs.Ty.Alignment
import ApiSurface.Proofs.Ty.ErasureWalk
import ApiSurface.Proofs.Ty.Event
import ApiSurface.Proofs.Ty.LambdaParts
import ApiSurface.Proofs.Ty.Marks
import ApiSurface.Proofs.Ty.Noninterference
import ApiSurface.Proofs.Ty.Rebuild
import ApiSurface.Proofs.Ty.Renaming
import ApiSurface.Proofs.Ty.Sharing
import ApiSurface.Proofs.Ty.Substitution
import ApiSurface.Proofs.Ty.Validity
import ApiSurface.Proofs.Ty.Variables
import ApiSurface.SignatureFormat
import ApiSurface.Text.Blank
import ApiSurface.Text.Dotted
import ApiSurface.Text.Printable
import ApiSurface.Text.Quoted
import ApiSurface.Text.Ranges
import ApiSurface.Text.Search
import ApiSurface.Text.Word
import ApiSurface.Ty.Basic
import ApiSurface.Ty.Checked
import ApiSurface.Ty.Edit
import ApiSurface.Ty.Equality
import ApiSurface.Ty.Erasure
import ApiSurface.Ty.Event
import ApiSurface.Ty.Induction
import ApiSurface.Ty.Plain
import ApiSurface.Ty.Render
import ApiSurface.Ty.Rule
import ApiSurface.Ty.Sharing
import ApiSurface.Ty.Substitution
