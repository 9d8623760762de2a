import PodmanLens.Observation

/-!
# Discovery requests and selector resolution

A request names roots by exact or prefix selectors, by labels, or asks for every eligible root, and
may authorize crossing named networks. References are exact: no whitespace and no wildcard syntax.
A reference resolves when exactly one record of its kind answers to it.
-/

namespace PodmanLens
open Std Text Validated TreeEntries

def isExactReference (value : String) : Bool :=
  !value.isEmpty && !value.toList.any isWhitespace &&
    !value.toList.any fun c => ['*', '?', '[', ']'].contains c

abbrev ExactReference := Checked isExactReference

def ExactReference.new (value : String) : PodmanLensResult ExactReference :=
  Checked.new isExactReference .invalidDiscoveryRequest value

inductive ResourceSelectorMatch
  | exact
  | namePrefix
  deriving DecidableEq

def ResourceSelectorMatch.rank : ResourceSelectorMatch → ℕ
  | .exact => 0
  | .namePrefix => 1

structure ResourceSelector where
  kind : ResourceKind
  reference : ExactReference
  matchKind : ResourceSelectorMatch
  deriving DecidableEq

namespace ResourceSelector

def exact (kind : ResourceKind) (reference : String) : PodmanLensResult ResourceSelector :=
  (ExactReference.new reference).map fun reference => ⟨kind, reference, .exact⟩

def namePrefix (kind : ResourceKind) (reference : String) : PodmanLensResult ResourceSelector :=
  (ExactReference.new reference).map fun reference => ⟨kind, reference, .namePrefix⟩

def sortKey (selector : ResourceSelector) : ResourceKind × ExactReference × ℕ :=
  (selector.kind, selector.reference, selector.matchKind.rank)

theorem sortKey_injective : Function.Injective sortKey := by
  rintro ⟨_, _, left⟩ ⟨_, _, right⟩ h
  simp only [sortKey, Prod.mk.injEq] at h
  obtain ⟨rfl, rfl, hrank⟩ := h
  cases left <;> cases right <;> first | rfl | cases hrank

instance : Ord ResourceSelector := ⟨compareOn sortKey⟩

instance : TransOrd ResourceSelector := inferInstanceAs (TransCmp (compareOn sortKey))

instance : LawfulEqOrd ResourceSelector where
  eq_of_compare h := sortKey_injective (Std.compare_eq_iff_eq.mp h)

end ResourceSelector

/-- A label by name alone, or by name and exact value. -/
structure LabelSelector where
  name : ExactReference
  value : Option String
  deriving DecidableEq

namespace LabelSelector

def presence (name : String) : PodmanLensResult LabelSelector :=
  (ExactReference.new name).map fun name => ⟨name, none⟩

def exact (name value : String) : PodmanLensResult LabelSelector :=
  (ExactReference.new name).map fun name => ⟨name, some value⟩

def sortKey (selector : LabelSelector) : ExactReference × Option String :=
  (selector.name, selector.value)

theorem sortKey_injective : Function.Injective sortKey := by
  rintro ⟨_, _⟩ ⟨_, _⟩ h
  cases h
  rfl

instance : Ord LabelSelector := ⟨compareOn sortKey⟩

instance : TransOrd LabelSelector := inferInstanceAs (TransCmp (compareOn sortKey))

instance : LawfulEqOrd LabelSelector where
  eq_of_compare h := sortKey_injective (Std.compare_eq_iff_eq.mp h)

end LabelSelector

structure DiscoveryRequest where
  roots : ExtTreeSet ResourceSelector
  all : Bool
  networkBoundaryOverrides : ExtTreeSet ExactReference
  labelSelectors : ExtTreeSet LabelSelector

namespace DiscoveryRequest

def new : DiscoveryRequest := ⟨∅, false, ∅, ∅⟩

def addRoot (request : DiscoveryRequest) (selector : ResourceSelector) : DiscoveryRequest :=
  { request with roots := request.roots.insert selector }

def selectAll (request : DiscoveryRequest) : DiscoveryRequest := { request with all := true }

def addNetworkBoundaryOverride (request : DiscoveryRequest) (identifier : String) :
    PodmanLensResult DiscoveryRequest :=
  (ExactReference.new identifier).map fun identifier =>
    { request with networkBoundaryOverrides := request.networkBoundaryOverrides.insert identifier }

def addLabelRoot (request : DiscoveryRequest) (selector : LabelSelector) : DiscoveryRequest :=
  { request with labelSelectors := request.labelSelectors.insert selector }

end DiscoveryRequest

inductive SelectorResolution
  | none
  | one (identity : ResourceIdentity)
  | many
  deriving DecidableEq

def SelectorResolution.ofMatched : List ResourceIdentity → SelectorResolution
  | [] => .none
  | [identity] => .one identity
  | _ => .many

def observedRelationships (record : ResourceObservation) : Option (List NativeRelationship) :=
  record.relationships.bind ObservationField.toOption

def observedLabels (record : ResourceObservation) : Option Labels := record.labels.toOption

def observedImageAliasMatches (record : ResourceObservation) (reference : String) : Bool :=
  ([record.imageRepoTags, record.imageRepoDigests].filterMap id).any fun field =>
    field.toOption.any fun aliases => aliases.contains reference

/-- A record answers to its identifier, its name, and, for an image, its observed aliases. -/
def answersTo (kind : ResourceKind) (reference : String)
    (entry : ResourceIdentity × ResourceObservation) : Bool :=
  entry.1.kind == kind && (entry.1.id == reference || entry.1.name == some reference ||
    (kind == .image && observedImageAliasMatches entry.2 reference))

def resolveSelector (records : Records) (selector : ResourceSelector) : SelectorResolution :=
  .ofMatched <| (records.toList.filter (answersTo selector.kind selector.reference.asStr)).map
    Prod.fst

def resolveReferenceCount (records : Records) (kind : ResourceKind) (reference : String) :
    SelectorResolution :=
  .ofMatched <| (records.toList.filter (answersTo kind reference)).map Prod.fst

def resolvePrefixSelector (records : Records) (selector : ResourceSelector) :
    List ResourceIdentity :=
  records.keys.filter fun identity => identity.kind == selector.kind &&
    identity.name.any fun name => selector.reference.asStr.toList.isPrefixOf name.toList

end PodmanLens
