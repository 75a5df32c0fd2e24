import SchemaPlan.Codec
import SchemaPlan.Address
import SchemaPlan.Address.Json
import SchemaPlan.Json.Form
import SchemaPlan.Timestamp.Writer
import SchemaPlan.Timestamp.Reader
import SchemaPlan.Table.Json
import SchemaPlan.Table.Validation
import SchemaPlan.Table.Difference
import SchemaPlan.Topic.Json
import SchemaPlan.Topic.Difference
import SchemaPlan.Operation.Effect
import SchemaPlan.Ddl.Region
import SchemaPlan.Ddl.Statement
import SchemaPlan.Plan
import SchemaPlan.Planner
import SchemaPlan.Main
import SchemaPlan.Proofs.Address.RoundTrip
import SchemaPlan.Proofs.Plan.Containment
import SchemaPlan.Proofs.Plan.Convergence
import SchemaPlan.Proofs.Plan.Executability
import SchemaPlan.Proofs.Plan.Stability
import SchemaPlan.Proofs.Operation.ConsumerRun
import SchemaPlan.Proofs.Topic.Difference
import SchemaPlan.Proofs.Plan.TopicConvergence
import SchemaPlan.Ddl.Entry
import SchemaPlan.Proofs.Ddl.Entry
import SchemaPlan.Proofs.Ddl.Listing
import SchemaPlan.Proofs.Plan.TypeEntries
import SchemaPlan.Ddl.Reader
import SchemaPlan.Ddl.Created
import SchemaPlan.Proofs.Ddl.Reader
import SchemaPlan.Proofs.Ddl.Settings
import SchemaPlan.Proofs.Plan.Creation
import SchemaPlan.Proofs.Plan.TopicResolution
import SchemaPlan.Proofs.Plan.TopicCreation
import SchemaPlan.Proofs.Plan.Preservation
import SchemaPlan.Proofs.Ddl.Unambiguous
import SchemaPlan.Table.Agreement
import SchemaPlan.Proofs.Plan.UpToDate
import SchemaPlan.Proofs.Plan.Families
import SchemaPlan.Operation.Fault
import SchemaPlan.Proofs.Plan.Failure
import SchemaPlan.Proofs.Json.Form
import SchemaPlan.Proofs.Json.RoundTrip
import SchemaPlan.Relisting
import SchemaPlan.Proofs.Plan.Relisting
import SchemaPlan.Topic.Mention
import SchemaPlan.Proofs.Plan.TopicCodecs
import SchemaPlan.Address.Grammar
import SchemaPlan.Proofs.Address.Grammar
import SchemaPlan.Snapshot.Stored
import SchemaPlan.Proofs.Snapshot.Kind
import SchemaPlan.Snapshot.Containment
import SchemaPlan.Proofs.Snapshot.Containment
import SchemaPlan.Proofs.Address.Parts
import SchemaPlan.Operation.Omission
import SchemaPlan.Proofs.Plan.Order
import SchemaPlan.Proofs.Plan.Exchange
import SchemaPlan.Proofs.Plan.Minimality
import SchemaPlan.Ddl.SplitPoint
import SchemaPlan.Proofs.Ddl.Literal
import SchemaPlan.Proofs.Plan.SplitPoint
import SchemaPlan.Ddl.ReadPosition
import SchemaPlan.Ddl.SettingKey
import SchemaPlan.Proofs.Plan.SettingKey
import SchemaPlan.Table.Violation
import SchemaPlan.Proofs.Table.Violation
import SchemaPlan.Proofs.Ddl.ReadPosition
import SchemaPlan.Proofs.Plan.TopicUpToDate
import SchemaPlan.Proofs.Topic.Reordering
import SchemaPlan.Ddl.Spelling
import SchemaPlan.Proofs.Ddl.Spelling
