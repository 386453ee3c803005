import Clearance.Deployment.Perform
import Clearance.Policy.Rules
import Clearance.Settings.Decoding
import Clearance.Settings.LogConfig
import Clearance.Settings.Source
import Clearance.Proofs.Deployment.Discipline
import Clearance.Proofs.Deployment.History
import Clearance.Proofs.Deployment.Repeatable
import Clearance.Proofs.Deployment.Coherence
import Clearance.Proofs.Deployment.Mirror
import Clearance.Proofs.Deployment.Tree
import Clearance.Proofs.World.Ahead
import Clearance.Proofs.Resolver.Descent
import Clearance.Proofs.Resolver.Reached
import Clearance.Proofs.Resolver.Retry
import Clearance.Proofs.Resolver.Races
import Clearance.Proofs.Resolver.Creation
import Clearance.Proofs.Resolver.Depth
import Clearance.Proofs.Resolver.TreeOrder
import Clearance.Proofs.Permission.Canonical
import Clearance.Proofs.Session.Supplies
import Clearance.Proofs.Session.Again
import Clearance.Proofs.Session.Hierarchy
import Clearance.Proofs.Session.Refusal
import Clearance.Proofs.Session.Separation
import Clearance.Proofs.Operations.Batch
import Clearance.Proofs.Operations.Conservation
import Clearance.Proofs.Assignment.Loaded
import Clearance.Proofs.Context.Gains
import Clearance.Proofs.Context.Spelling
import Clearance.Proofs.Context.Drafts
import Clearance.Proofs.Resolver.Roots
import Clearance.Proofs.Context.Overwriting
import Clearance.Proofs.Session.Undecodable
import Clearance.Proofs.Resolver.Newcomers
import Clearance.Proofs.Deployment.Touching
import Clearance.Proofs.Deployment.Within
import Clearance.Proofs.Deployment.Inheritance
import Clearance.Proofs.Assignment.Affected
import Clearance.Proofs.Operations.Warming
import Clearance.Proofs.Operations.Accounting
import Clearance.Proofs.Policy.Dispatch
import Clearance.Proofs.Resolver.Announcements
import Clearance.Proofs.Deployment.Caching
import Clearance.Proofs.Deployment.Override
import Clearance.Proofs.Text.Lowercase
import Clearance.Proofs.Settings.Levels
import Clearance.Proofs.Deployment.Exported
