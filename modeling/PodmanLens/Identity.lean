import PodmanLens.Diagnostic
import PodmanLens.Validated

/-!
# Resource and operation identities

A deployment resource is named by its kind and exact target-side spelling, an operation by its
phase and resource. Both are ordered lexicographically, kinds by their canonical rank, and the
orders are lawful: tree maps over identities are extensional.
-/

namespace PodmanLens
open Std Text Validated

inductive ResourceKind
  | container
  | pod
  | network
  | volume
  | image
  | secret
  deriving DecidableEq

/-- Container, pod, network, volume, image, then secret. -/
def ResourceKind.canonicalRank : ResourceKind → ℕ
  | .container => 0
  | .pod => 1
  | .network => 2
  | .volume => 3
  | .image => 4
  | .secret => 5

theorem ResourceKind.canonicalRank_injective {a b : ResourceKind}
    (h : a.canonicalRank = b.canonicalRank) : a = b := by
  cases a <;> cases b <;> first | rfl | cases h

instance : Ord ResourceKind := ⟨compareOn ResourceKind.canonicalRank⟩

instance : TransOrd ResourceKind := inferInstanceAs (TransCmp (compareOn ResourceKind.canonicalRank))

instance : LawfulEqOrd ResourceKind where
  eq_of_compare h := ResourceKind.canonicalRank_injective (Std.compare_eq_iff_eq.mp h)

def maxReferenceBytes : ℕ := 256

def validIdentifier (value : String) : Bool :=
  !(value.isEmpty || decide (maxReferenceBytes < value.utf8ByteSize) || value.toList.any isControl)

theorem controlFree_of_validIdentifier {value : String} (h : validIdentifier value = true) :
    ControlFree value := by
  rw [controlFree_iff]
  simp only [validIdentifier, Bool.not_eq_true', Bool.or_eq_false_iff] at h
  exact h.2

structure DeploymentResourceId where
  kind : ResourceKind
  name : String
  identifier : validIdentifier name = true
  deriving DecidableEq

namespace DeploymentResourceId

def new (kind : ResourceKind) (name : String) : PodmanLensResult DeploymentResourceId :=
  if h : validIdentifier name = true then .ok ⟨kind, name, h⟩ else .error .invalidDeploymentIntent

theorem eq_of_kind_name {a b : DeploymentResourceId} (hkind : a.kind = b.kind)
    (hname : a.name = b.name) : a = b := by
  cases a
  cases b
  cases hkind
  cases hname
  rfl

theorem controlFree_name (id : DeploymentResourceId) : ControlFree id.name :=
  controlFree_of_validIdentifier id.identifier

instance : Ord DeploymentResourceId :=
  ⟨compareLex (compareOn DeploymentResourceId.kind) (compareOn DeploymentResourceId.name)⟩

instance : TransOrd DeploymentResourceId :=
  inferInstanceAs (TransCmp
    (compareLex (compareOn DeploymentResourceId.kind) (compareOn DeploymentResourceId.name)))

instance : LawfulEqOrd DeploymentResourceId where
  eq_of_compare {a b} h := by
    change (compare a.kind b.kind).then (compare a.name b.name) = .eq at h
    rw [Ordering.then_eq_eq] at h
    exact eq_of_kind_name (Std.compare_eq_iff_eq.mp h.1) (Std.compare_eq_iff_eq.mp h.2)

end DeploymentResourceId

def embeddedPayloadPrefixes : List String := ["literal:", "plaintext:", "base64:"]

/-- Literal and encoded payload prefixes are matched without regard to ASCII case. -/
def embedsPayload (value : String) : Bool :=
  embeddedPayloadPrefixes.any fun marker =>
    ((value.toList.take marker.length).map Char.toLower) == marker.toList

/-- A reference to secret material that stays outside every plan. -/
structure SensitiveInputReference where
  asStr : String
  external : embedsPayload asStr = false
  identifier : validIdentifier asStr = true
  deriving DecidableEq

def SensitiveInputReference.new (value : String) : PodmanLensResult SensitiveInputReference :=
  if hpayload : embedsPayload value = false then
    if h : validIdentifier value = true then .ok ⟨value, hpayload, h⟩
    else .error .invalidDeploymentIntent
  else .error .sensitivePayloadEmbedded

/-- An identity whose kind is fixed. -/
abbrev OfKind (kind : ResourceKind) := { id : DeploymentResourceId // id.kind = kind }

def requireKind (identity : DeploymentResourceId) (expected : ResourceKind) :
    PodmanLensResult (OfKind expected) :=
  if h : identity.kind = expected then .ok ⟨identity, h⟩ else .error .invalidDeploymentIntent

inductive SemanticOperationAction
  | ensureImage
  | create
  | startPod
  | startContainer
  deriving DecidableEq

def SemanticOperationAction.rank : SemanticOperationAction → ℕ
  | .ensureImage => 0
  | .create => 1
  | .startPod => 2
  | .startContainer => 3

theorem SemanticOperationAction.rank_injective {a b : SemanticOperationAction}
    (h : a.rank = b.rank) : a = b := by
  cases a <;> cases b <;> first | rfl | cases h

instance : Ord SemanticOperationAction := ⟨compareOn SemanticOperationAction.rank⟩

instance : TransOrd SemanticOperationAction :=
  inferInstanceAs (TransCmp (compareOn SemanticOperationAction.rank))

instance : LawfulEqOrd SemanticOperationAction where
  eq_of_compare h := SemanticOperationAction.rank_injective (Std.compare_eq_iff_eq.mp h)

structure DeploymentOperationId where
  action : SemanticOperationAction
  resource : DeploymentResourceId
  deriving DecidableEq

namespace DeploymentOperationId

instance : Ord DeploymentOperationId :=
  ⟨compareLex (compareOn DeploymentOperationId.action) (compareOn DeploymentOperationId.resource)⟩

instance : TransOrd DeploymentOperationId :=
  inferInstanceAs (TransCmp
    (compareLex (compareOn DeploymentOperationId.action) (compareOn DeploymentOperationId.resource)))

instance : LawfulEqOrd DeploymentOperationId where
  eq_of_compare {a b} h := by
    change (compare a.action b.action).then (compare a.resource b.resource) = .eq at h
    rw [Ordering.then_eq_eq] at h
    cases a
    cases b
    cases (Std.compare_eq_iff_eq.mp h.1 : _ = _)
    cases (Std.compare_eq_iff_eq.mp h.2 : _ = _)
    rfl

end DeploymentOperationId

structure OperationSortKey where
  rank : ℕ
  resource : DeploymentResourceId

namespace OperationSortKey

instance : Ord OperationSortKey :=
  ⟨compareLex (compareOn OperationSortKey.rank) (compareOn OperationSortKey.resource)⟩

instance : TransOrd OperationSortKey :=
  inferInstanceAs (TransCmp
    (compareLex (compareOn OperationSortKey.rank) (compareOn OperationSortKey.resource)))

instance : LawfulEqOrd OperationSortKey where
  eq_of_compare {a b} h := by
    change (compare a.rank b.rank).then (compare a.resource b.resource) = .eq at h
    rw [Ordering.then_eq_eq] at h
    cases a
    cases b
    cases (Std.compare_eq_iff_eq.mp h.1 : _ = _)
    cases (Std.compare_eq_iff_eq.mp h.2 : _ = _)
    rfl

end OperationSortKey

/-- Managed prerequisites come before pods, pods before containers, and starts come last. -/
def operationSortKey (id : DeploymentOperationId) : OperationSortKey :=
  let rank := match id.action, id.resource.kind with
    | .create, .network => 0
    | .create, .volume => 1
    | .create, .secret => 2
    | .ensureImage, .image => 3
    | .create, .pod => 4
    | .create, .container => 5
    | .startPod, _ | .startContainer, _ => 6
    | _, _ => 7
  ⟨rank, id.resource⟩

end PodmanLens
