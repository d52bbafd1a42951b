import DomainDesign.AutoMap
import DomainDesign.Compile.Aggregates
import DomainDesign.Compile.Mappers
import DomainDesign.Compile.Queries
import DomainDesign.Compile.Rendering
import DomainDesign.Compile.Tables
import DomainDesign.Compiled.Behaviour
import DomainDesign.Compiled.Class
import DomainDesign.Compiled.Data
import DomainDesign.Compiled.Document
import DomainDesign.Compiled.Naming
import DomainDesign.Config
import DomainDesign.Decimal.Binary64
import DomainDesign.Decimal.Layout
import DomainDesign.Decimal.Shortest
import DomainDesign.Dict
import DomainDesign.Digest.Blake3
import DomainDesign.Document
import DomainDesign.Error
import DomainDesign.Generate.Aggregate
import DomainDesign.Generate.Carrier
import DomainDesign.Generate.Memo
import DomainDesign.IdSupply
import DomainDesign.Json.Basic
import DomainDesign.Json.Number
import DomainDesign.Json.Parser
import DomainDesign.Json.Printer
import DomainDesign.Json.Record
import DomainDesign.Json.Token
import DomainDesign.Model.Behaviour
import DomainDesign.Model.Class
import DomainDesign.Model.Data
import DomainDesign.Model.Dependencies
import DomainDesign.Model.Enumeration
import DomainDesign.Model.Mapper
import DomainDesign.Model.Naming
import DomainDesign.Outline
import DomainDesign.Power
import DomainDesign.Register
import DomainDesign.Relations
import DomainDesign.Retarget
import DomainDesign.SourceFile
import DomainDesign.Storage.Basic
import DomainDesign.Storage.Codec
import DomainDesign.Storage.Projection
import DomainDesign.Store
import DomainDesign.Text.Blank
import DomainDesign.Text.CaseTables
import DomainDesign.Text.Hex
import DomainDesign.Text.LowerCase
import DomainDesign.Text.Similarity
import DomainDesign.Tree.Basic
import DomainDesign.Tree.Node
import DomainDesign.Tree.Snapshot
import DomainDesign.Tree.Walk
import DomainDesign.TypeExpr.Basic
import DomainDesign.TypeExpr.Codec
import DomainDesign.Warning
import DomainDesign.Yaml.Cursor
import DomainDesign.Yaml.Parser
import DomainDesign.Yaml.Scalar
import DomainDesign.Yaml.Token
import DomainDesign.Proofs.Dictionaries
import DomainDesign.Proofs.Stores
import DomainDesign.Proofs.DepthFirst
import DomainDesign.Proofs.Registers
import DomainDesign.Proofs.Memos
import DomainDesign.Proofs.Lists
import DomainDesign.Proofs.Outcomes
import DomainDesign.Proofs.Walks
import DomainDesign.Proofs.DomainStates
import DomainDesign.Proofs.Attachment
import DomainDesign.Proofs.Columns
import DomainDesign.Proofs.ObjectGraph
import DomainDesign.Proofs.Synthesis
import DomainDesign.Proofs.RecordCodec
import DomainDesign.Proofs.ModelCodec
import DomainDesign.Proofs.Generation
import DomainDesign.Proofs.Loading
import DomainDesign.Proofs.PlantedTrees
import DomainDesign.Proofs.CarriedTypes
import DomainDesign.Proofs.PartNodes
import DomainDesign.Proofs.QueryStates
import DomainDesign.Proofs.SelfContained
import DomainDesign.Proofs.Recompilation
import DomainDesign.Proofs.Findings
import DomainDesign.Proofs.Traversal
import DomainDesign.Proofs.Wiring
import DomainDesign.Proofs.Ownership
import DomainDesign.Proofs.MapperSides
import DomainDesign.Proofs.Building
import DomainDesign.Proofs.Snapshots
import DomainDesign.Proofs.Grouping
import DomainDesign.Proofs.Overloads
import DomainDesign.Proofs.CanonicalDocuments
import DomainDesign.Proofs.CompiledText
import DomainDesign.Proofs.PropertyBags
import DomainDesign.Proofs.InsertionOrder
import DomainDesign.Proofs.Strictness
import DomainDesign.Proofs.FreshIds
import DomainDesign.Proofs.RelationGraph
import DomainDesign.Proofs.TreeOrder
import DomainDesign.Proofs.StoreRuns
import DomainDesign.Proofs.StoreKeys
import DomainDesign.Proofs.Renewal
import DomainDesign.Proofs.RetargetChains
import DomainDesign.Proofs.QueryModels
import DomainDesign.Proofs.SchemaProjections
import DomainDesign.Proofs.Tours
import DomainDesign.Proofs.Refusals
import DomainDesign.Proofs.GenerationSuccess
import DomainDesign.Proofs.IndexCoverage
import DomainDesign.Proofs.Nesting
import DomainDesign.Proofs.ReferenceChains
import DomainDesign.Proofs.IdentifierSplit
import DomainDesign.Proofs.ReferenceSummaries
import DomainDesign.Proofs.RelationKinds
import DomainDesign.Proofs.StorageFit
import DomainDesign.Proofs.BestColumns
import DomainDesign.Proofs.Copies
import DomainDesign.Proofs.MapperAgreement
import DomainDesign.Proofs.FirstOccurrences
import DomainDesign.Proofs.DependencySplit
import DomainDesign.Proofs.ReferenceCalls
import DomainDesign.Proofs.TypeAgreement
import DomainDesign.Proofs.ResolvedMappers
import DomainDesign.Proofs.MemoRuns
import DomainDesign.Proofs.LeadingIntegers
