import Mathlib.Data.List.Basic

/-!
# Stable diagnostic codes

Every refusal of a constructor and every planner, renderer or discovery finding names one of these
codes. A diagnostic is its code: the explanation is a fixed function of it.
-/

namespace PodmanLens

inductive DiagnosticCode
  | invalidConnection
  | transportUnavailable
  | invalidTransportMessage
  | invalidVersion
  | incompatibleTargetProfile
  | catalogueUnavailable
  | probeHttpStatus
  | probeHeader
  | probeJson
  | probeShape
  | probeComponent
  | observedCompatibility
  | inventoryHttpStatus
  | inventoryJson
  | inventoryShape
  | resourceUnavailable
  | resourceMalformed
  | secretPayloadDiscarded
  | environmentMalformed
  | relationshipConflict
  | unknownFieldOverflow
  | versionInapplicableField
  | nativeFieldUnsupported
  | unresolvedRelationship
  | podMembershipConflict
  | inventoryEvidenceUnavailable
  | invalidDiscoveryRequest
  | selectorUnresolved
  | selectorAmbiguous
  | advisoryLabelIncomplete
  | advisoryLabelConflict
  | relationshipAmbiguous
  | boundaryOverrideUnused
  | invalidDeploymentIntent
  | deploymentDuplicateResource
  | deploymentConflictingResource
  | deploymentUnresolvedPrerequisite
  | deploymentUnsupportedCombination
  | deploymentCycle
  | sensitivePayloadEmbedded
  | invalidImageReference
  | invalidExternalPrecondition
  | deploymentPodMembership
  | samePodStartupDependency
  | renderingTargetMismatch
  | renderingUnsupported
  | nativeFieldCoverageUnavailable
  | imagePortabilityManual
  | volumeOwnerDefaultAmbiguous
  | creationEvidenceConflict
  deriving DecidableEq

/-- The stable spelling of a code. -/
def DiagnosticCode.asStr : DiagnosticCode → String
  | .invalidConnection => "PLN0001"
  | .transportUnavailable => "PLN0002"
  | .invalidTransportMessage => "PLN0003"
  | .invalidVersion => "PLN0004"
  | .incompatibleTargetProfile => "PLN0005"
  | .catalogueUnavailable => "PLN0006"
  | .probeHttpStatus => "PLN0007"
  | .probeHeader => "PLN0008"
  | .probeJson => "PLN0009"
  | .probeShape => "PLN0010"
  | .probeComponent => "PLN0011"
  | .observedCompatibility => "PLN0012"
  | .inventoryHttpStatus => "PLN0013"
  | .inventoryJson => "PLN0014"
  | .inventoryShape => "PLN0015"
  | .resourceUnavailable => "PLN0016"
  | .resourceMalformed => "PLN0017"
  | .secretPayloadDiscarded => "PLN0018"
  | .environmentMalformed => "PLN0019"
  | .relationshipConflict => "PLN0020"
  | .unknownFieldOverflow => "PLN0021"
  | .versionInapplicableField => "PLN0022"
  | .nativeFieldUnsupported => "PLN0023"
  | .unresolvedRelationship => "PLN0024"
  | .podMembershipConflict => "PLN0025"
  | .inventoryEvidenceUnavailable => "PLN0026"
  | .invalidDiscoveryRequest => "PLN0027"
  | .selectorUnresolved => "PLN0028"
  | .selectorAmbiguous => "PLN0029"
  | .advisoryLabelIncomplete => "PLN0030"
  | .advisoryLabelConflict => "PLN0031"
  | .relationshipAmbiguous => "PLN0032"
  | .boundaryOverrideUnused => "PLN0033"
  | .invalidDeploymentIntent => "PLN0034"
  | .deploymentDuplicateResource => "PLN0035"
  | .deploymentConflictingResource => "PLN0036"
  | .deploymentUnresolvedPrerequisite => "PLN0037"
  | .deploymentUnsupportedCombination => "PLN0038"
  | .deploymentCycle => "PLN0039"
  | .sensitivePayloadEmbedded => "PLN0040"
  | .invalidImageReference => "PLN0041"
  | .invalidExternalPrecondition => "PLN0042"
  | .deploymentPodMembership => "PLN0043"
  | .samePodStartupDependency => "PLN0044"
  | .renderingTargetMismatch => "PLN0045"
  | .renderingUnsupported => "PLN0046"
  | .nativeFieldCoverageUnavailable => "PLN0047"
  | .imagePortabilityManual => "PLN0048"
  | .volumeOwnerDefaultAmbiguous => "PLN0049"
  | .creationEvidenceConflict => "PLN0050"

/-- A refusal says which rule was broken and shows no input. -/
abbrev PodmanLensResult (α : Type) := Except DiagnosticCode α

end PodmanLens
