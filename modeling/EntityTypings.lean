import EntityTypings.Emission
import EntityTypings.Files.Tree
import EntityTypings.Generation
import EntityTypings.Main
import EntityTypings.Response
import EntityTypings.Proofs.Resolution
import EntityTypings.Proofs.Run
import EntityTypings.Proofs.FailedRun
import EntityTypings.Proofs.BaseWalk
import EntityTypings.Proofs.CutOffWalk
import EntityTypings.Proofs.EffectiveMembers
import EntityTypings.Proofs.Inheritance
import EntityTypings.Proofs.Correspondence
import EntityTypings.Proofs.Dependence
import EntityTypings.Proofs.Skipping
import EntityTypings.Proofs.HiddenFaults
import EntityTypings.Proofs.CatalogOrder
import EntityTypings.Proofs.Reports
import EntityTypings.Proofs.Assembly
import EntityTypings.Proofs.Links
import EntityTypings.Proofs.AttributeNames
import EntityTypings.Proofs.Lookups
import EntityTypings.Proofs.AttributeUnions
import EntityTypings.Proofs.CommentLines
import EntityTypings.Proofs.DeclaredNames
import EntityTypings.Proofs.SubtypeFields
import EntityTypings.Proofs.ResponseLayouts
import EntityTypings.Proofs.TreeChanges
import EntityTypings.Proofs.Delivery
import EntityTypings.Proofs.SettingFields
import EntityTypings.Proofs.SettingAssignments
import EntityTypings.Proofs.Precedence
import EntityTypings.Proofs.VariableValues
import EntityTypings.Proofs.EnvironmentTexts
import EntityTypings.Proofs.DescriptorGrammar
import EntityTypings.Proofs.ResolvedProperties
import EntityTypings.Proofs.SchemaCounts
import EntityTypings.Proofs.QuotedTexts
import EntityTypings.Proofs.WrittenStatements
import EntityTypings.Proofs.WrittenDocuments
import EntityTypings.Proofs.FileNames
import EntityTypings.Proofs.SavedSettings
import EntityTypings.Proofs.LongestAscent
import EntityTypings.Proofs.DescriptorTypes
import EntityTypings.Proofs.ValueUnions
import EntityTypings.Proofs.InterfaceBodies
import EntityTypings.Proofs.FlatUnions
import EntityTypings.Proofs.WrittenTypes
import EntityTypings.Proofs.FailedSchemas
import EntityTypings.Proofs.DecimalTexts
import EntityTypings.Proofs.CompactTexts
import EntityTypings.Proofs.ReadValues
import EntityTypings.Proofs.ConfigurationTable
import EntityTypings.Proofs.BalancedWriters
