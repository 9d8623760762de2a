import PodmanLens.Json
import PodmanLens.Plan

/-!
# Rendered forms

A rendered operation is a command-line invocation and a Libpod request that describe the same
semantic operation. Findings name the refused field of a resource. Target gates are predicates on
the exact version spellings the renderer was reviewed for.
-/

namespace PodmanLens
open Std Text Json

inductive RenderStatus
  | exact
  | deferredSensitiveInput
  | manual
  | approximate
  | unsupported
  deriving DecidableEq

structure RenderingFinding where
  code : DiagnosticCode
  subject : Option DeploymentResourceId
  field : Option String
  deriving DecidableEq

def RenderingFinding.compareFindings (a b : RenderingFinding) : Ordering :=
  (compare a.code.asStr b.code.asStr).then <| (compare a.subject b.subject).then <|
    compare a.field b.field

/-- A field of one resource that the renderer does not express. -/
def unsupportedFinding (identity : DeploymentResourceId) (field : String) : RenderingFinding :=
  ⟨.renderingUnsupported, some identity, some field⟩

abbrev RenderResult (α : Type) := Except RenderingFinding α

structure CliInvocation where
  program : String
  argv : List String
  externalInput : Option SensitiveInputReference
  deriving DecidableEq

def CliInvocation.new (argv : List String) (externalInput : Option SensitiveInputReference) :
    CliInvocation := ⟨"podman", argv, externalInput⟩

inductive RenderedHttpMethod
  | get
  | post
  deriving DecidableEq

inductive RenderedHttpBody
  | empty
  | json (value : Value)
  | externalSensitiveInput (reference : SensitiveInputReference)

structure LibpodInvocation where
  method : RenderedHttpMethod
  pathAndQuery : String
  body : RenderedHttpBody

structure RenderedOperation where
  operation : DeploymentOperation
  status : RenderStatus
  cli : CliInvocation
  libpod : LibpodInvocation

structure DeploymentRendering where
  status : RenderStatus
  containsProtectedInlineEnvironment : Bool
  connection : Option DeploymentConnectionReference
  externalPreconditions : List ExternalPrecondition
  operations : List RenderedOperation

structure RenderingOutcome where
  rendering : Option DeploymentRendering
  findings : List RenderingFinding

inductive SensitiveInlineRenderPolicy
  | reject
  | authorized
  deriving DecidableEq

section Target

/-- The versions of the reviewed lines of the rendering catalogue. -/
def rendererCatalogueVersions : List String :=
  ["5.4.0", "5.5.0", "5.6.0", "5.7.0", "5.8.6", "6.0.0", "6.1.0"]

def canonicalVersion (version : Version) : String :=
  version.major.repr ++ "." ++ version.minor.repr ++ "." ++ version.patch.repr

/-- Engine and API must be the same version without build metadata, exactly as reviewed. -/
def reviewedRendererTargetVersion (plan : DeploymentPlan) : Option String :=
  let engine := plan.target.podmanVersion.asSemver
  let api := plan.target.apiVersion.asSemver
  if engine ≠ api ∨ engine.build ≠ "" ∨ api.build ≠ "" then none
  else rendererCatalogueVersions.find? (· == canonicalVersion engine)

def supportsNetworkOrder (version : String) : Bool := version == "6.0.0" || version == "6.1.0"

def supportsImagePolicy (version : String) : Bool := !(version == "5.4.0" || version == "5.5.0")

def supportsVolumeOwnership (version : String) : Bool := supportsImagePolicy version

def supportsNetworkRouteType (version : String) : Bool := supportsNetworkOrder version

def supportsJournaldLabels (version : String) : Bool := version == "6.0.0" || version == "6.1.0"

def supportsUnlimitedRlimit (version : String) : Bool := !(version == "5.4.0" || version == "5.5.0")

end Target

def percentByte (byte : UInt8) : List Char :=
  let c := Char.ofNat byte.toNat
  if byte.toNat < 0x80 && (c.isAlphanum || c == '-' || c == '.' || c == '_' || c == '~') then [c]
  else ['%', (byte.toNat / 16).digitChar.toUpper, (byte.toNat % 16).digitChar.toUpper]

def percentEncode (value : String) : String :=
  String.ofList ((value.toList.flatMap String.utf8EncodeChar).flatMap percentByte)

end PodmanLens
