import SafeMigrate.Identifiers
import SafeMigrate.Model
import SafeMigrate.Graph
import SafeMigrate.NestedUndo
import SafeMigrate.State
import SafeMigrate.Rollback
import SafeMigrate.Coverage
import SafeMigrate.Command
import SafeMigrate.Statement
import SafeMigrate.Lookup
import SafeMigrate.VisitedWalk
import SafeMigrate.Cascade
import SafeMigrate.DropTable
import SafeMigrate.LastingEdges
import SafeMigrate.RestrictCascade
import SafeMigrate.Transaction
import SafeMigrate.NestedSnapshots
import SafeMigrate.SavepointRuns
import SafeMigrate.MapRebuild
import SafeMigrate.Writes
import SafeMigrate.Columns
import SafeMigrate.Sequences
import SafeMigrate.IndexTopology
import SafeMigrate.Partition
import SafeMigrate.SchemaRename
import SafeMigrate.SchemaSubstitution
import SafeMigrate.RenamedCatalog
import SafeMigrate.CreateTablePlan
import SafeMigrate.CreateTable
import SafeMigrate.TableWrites
import SafeMigrate.CreateTableWrites
import SafeMigrate.ForwardChain
import SafeMigrate.Aliases
import SafeMigrate.RelationRename
import SafeMigrate.StatementNames
import SafeMigrate.LiveAliases
import SafeMigrate.EvidenceUndo
import SafeMigrate.Engine
import SafeMigrate.Certainty
import SafeMigrate.CertaintyRuns
import SafeMigrate.LastingCertainty
import SafeMigrate.TableEngine
import SafeMigrate.MapMoves
import SafeMigrate.TypeRename
import SafeMigrate.TypeSubstitution
import SafeMigrate.RoutineMoves
import SafeMigrate.Saturation
import SafeMigrate.TypeCascade
import SafeMigrate.TypeFalls
import SafeMigrate.TypeCascadeRuns
import SafeMigrate.TypeCascadeFixpoint
import SafeMigrate.TypeCollations
import SafeMigrate.TypeCreation
import SafeMigrate.TypeCreationFrames
import SafeMigrate.DomainCommands
import SafeMigrate.DomainContainers
import SafeMigrate.DomainNames
import SafeMigrate.DomainClauses
import SafeMigrate.DomainPaths
import SafeMigrate.RenamedTypes
import SafeMigrate.TypeRenameTotal
import SafeMigrate.TypeRenameConverse
import SafeMigrate.SiblingCache
import SafeMigrate.AlterPartition
import SafeMigrate.PartitionFamilies
import SafeMigrate.PartitionWrites
import SafeMigrate.PartitionCreation
import SafeMigrate.PartitionAttachment
import SafeMigrate.DefaultPartitions
import SafeMigrate.DefaultPartitionRuns
import SafeMigrate.DropSchema
import SafeMigrate.RelationFamily
import SafeMigrate.CatalogSweep
import SafeMigrate.Removal
import SafeMigrate.DropSweeps
import SafeMigrate.SchemaSweeps
import SafeMigrate.DropPaths
import SafeMigrate.PrecomputedCascade
import SafeMigrate.AlterColumn
import SafeMigrate.MirroredLinks
import SafeMigrate.MirroredColumns
import SafeMigrate.ColumnAlterations
import SafeMigrate.ColumnCommands
import SafeMigrate.ColumnSources
import SafeMigrate.ColumnCreation
import SafeMigrate.ColumnAttachment
import SafeMigrate.ColumnRuns
import SafeMigrate.Bookkeeping
import SafeMigrate.Roles
import SafeMigrate.Publication
import SafeMigrate.KeyedList
import SafeMigrate.PublicationScopes
import SafeMigrate.PublicationSteps
import SafeMigrate.PublicationRuns
import SafeMigrate.Worklist
import SafeMigrate.RoleCommands
import SafeMigrate.RoleRecords
import SafeMigrate.RoleGrants
import SafeMigrate.RoleSteps
import SafeMigrate.RoleMemberships
import SafeMigrate.RoleRevokes
import SafeMigrate.RoleWithdrawals
import SafeMigrate.RoleRuns
import SafeMigrate.RoleOrphans
import SafeMigrate.SequenceCommands
import SafeMigrate.SequenceBounds
import SafeMigrate.SequenceOptions
import SafeMigrate.SequenceWrites
import SafeMigrate.SequenceAlterations
import SafeMigrate.SequenceRuns
import SafeMigrate.TriggerCommands
import SafeMigrate.ArraySyntax
import SafeMigrate.PartitionClauses
import SafeMigrate.LexBounds
import SafeMigrate.RangePredicates
import SafeMigrate.DefaultPredicates
import SafeMigrate.GeneratedNames
import SafeMigrate.NotNullConstraints
import SafeMigrate.NotNullColumns
import SafeMigrate.NotNullBookkeeping
import SafeMigrate.MapEdits
import SafeMigrate.PrivilegeRuns
import SafeMigrate.Delegation
import SafeMigrate.RevokeCascades
import SafeMigrate.RevokeOrders
import SafeMigrate.Privileges
import SafeMigrate.InsertionOrder
import SafeMigrate.GraphStore
import SafeMigrate.GraphLookups
import SafeMigrate.SessionSettings
import SafeMigrate.SettingLevels
import SafeMigrate.SettingRuns
import SafeMigrate.CascadeIndex
import SafeMigrate.PreStateCapture
import SafeMigrate.PathCompletion
import SafeMigrate.DescentCycles
import SafeMigrate.IndexGrowth
import SafeMigrate.KeyClones
import SafeMigrate.AttachedKeys
import SafeMigrate.ColumnPayloads
import SafeMigrate.ColumnSubstitution
import SafeMigrate.ColumnRenames
import SafeMigrate.RenamedDependents
import SafeMigrate.RenamedScans
import SafeMigrate.TypeReferences
import SafeMigrate.WrittenTypes
import SafeMigrate.TypeLookups
import SafeMigrate.VisitedSearch
import SafeMigrate.DomainReach
import SafeMigrate.DataTypes
import SafeMigrate.FixedPoint
import SafeMigrate.LossyNarrowing
import SafeMigrate.ViewRoutines
import SafeMigrate.DropSequence
import SafeMigrate.SequenceDefaults
import SafeMigrate.ExprVisitor
import SafeMigrate.IndexStatements
import SafeMigrate.NameParts
import SafeMigrate.SearchOrder
import SafeMigrate.RoleAuthority
import SafeMigrate.AuthorityCompletions
import SafeMigrate.TypeChanges
import SafeMigrate.BuiltinTypes
import SafeMigrate.Trimming
import SafeMigrate.TypeTexts
import SafeMigrate.TypeDisplays
import SafeMigrate.TypeDeclarations
import SafeMigrate.DeclarationReadings
import SafeMigrate.CoveredWrites
import SafeMigrate.CoveredTables
import SafeMigrate.CoveredObjects
import SafeMigrate.CoveredTypes
import SafeMigrate.CoveredRoles
import SafeMigrate.CoveredRenames
import SafeMigrate.CatalogRuns
import SafeMigrate.StatementAtomicity
import SafeMigrate.CycleSearch
import SafeMigrate.Validation
import SafeMigrate.RoleCatalog
import SafeMigrate.RoleLinks
import SafeMigrate.DependencyOrder
import SafeMigrate.ExtensionTypes
import SafeMigrate.CacheFile
import SafeMigrate.CacheReplacement
import SafeMigrate.FirstOfKey
import SafeMigrate.Judgements
import SafeMigrate.SafeVerdicts
