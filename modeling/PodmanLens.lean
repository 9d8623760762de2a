import PodmanLens.Address
import PodmanLens.PlanOrder
import PodmanLens.PlanPermutation
import PodmanLens.PlanLeast
import PodmanLens.PlanCycles
import PodmanLens.DiscoveryCrossings
import PodmanLens.NetworkPlanes
import PodmanLens.DeploymentArtifact
import PodmanLens.CreationPlanes
import PodmanLens.MacAddress
import PodmanLens.PlanPlacement
import PodmanLens.ImageAcceptance
import PodmanLens.RelationshipTargets
import PodmanLens.DiscoveryBulk
import PodmanLens.DiscoveryOverrides
import PodmanLens.RenderedPaths
import PodmanLens.CreateCommand
import PodmanLens.VersionCatalogue
import PodmanLens.CidrText
import PodmanLens.NetworkIntent
import PodmanLens.NetworkingMembers
import PodmanLens.NativeReferences
import PodmanLens.CarriedReferences
import PodmanLens.DroppedNetworks
import PodmanLens.Timestamp
import PodmanLens.ImageHints
import PodmanLens.CommandLines
import PodmanLens.CreationEvidence
import PodmanLens.Reconciliation
import PodmanLens.MembershipConflicts
import PodmanLens.NativeControls
import PodmanLens.NativeConfiguration
import PodmanLens.NativeRecords
import PodmanLens.BoundedCollection
import PodmanLens.UnknownFields
import PodmanLens.Inspection
import PodmanLens.MemberStates
import PodmanLens.UnmodelledStates
import PodmanLens.AccountedMembers
import PodmanLens.AccountedObservations
import PodmanLens.Acquisition
import PodmanLens.FieldBudget
import PodmanLens.SharedBudget
import PodmanLens.Returning
import PodmanLens.QuietDecoders
import PodmanLens.ListedRecords
import PodmanLens.AcquiredInventory
import PodmanLens.IsolatedFailures
import PodmanLens.Emission
import PodmanLens.RequestTrace
import PodmanLens.ListOrder
import PodmanLens.Provision
import PodmanLens.PlanExecution
import PodmanLens.DiscoveryWidening
import PodmanLens.DrainRestriction
import PodmanLens.PlanExtension
import PodmanLens.Coupling
import PodmanLens.JsonAlike
import PodmanLens.Snapshot
import PodmanLens.HiddenValues
import PodmanLens.HiddenPlaces
import PodmanLens.HiddenRecords
import PodmanLens.HiddenObservations
import PodmanLens.HiddenRuns
import PodmanLens.HiddenLabels
import PodmanLens.Noninterference
import PodmanLens.DiscoveryOrder
import PodmanLens.DiscoverySlice
