import PodmanLens.AddressParse
import PodmanLens.CreateMounts
import PodmanLens.Noted

/-!
# Native fields

Readers of one member of an inspect response. A member that is missing or null is absent, one of
the expected form is observed with its origin, and any other is malformed and noted once under its
path. The readers of single values differ only in the form they accept, the readers of arrays stop
at the first element they refuse.
-/

namespace Json.Value

def asBool : Value → Option Bool
  | .bool value => some value
  | _ => none

def asStr : Value → Option String
  | .string value => some value
  | _ => none

def asArray : Value → Option (List Value)
  | .array values => some values
  | _ => none

def asObject : Value → Option Members
  | .object members => some members
  | _ => none

/-- An integer outside the machine range stands for a number that is none. -/
def asU64 : Value → Option ℕ
  | .number value => if 0 ≤ value ∧ value < 2 ^ 64 then some value.toNat else none
  | _ => none

def asI64 : Value → Option ℤ
  | .number value => if -2 ^ 63 ≤ value ∧ value < 2 ^ 63 then some value else none
  | _ => none

def asU32 (value : Value) : Option UInt32 :=
  (value.asU64.filter (· < 2 ^ 32)).map UInt32.ofNat

def asAddress (value : Value) : Option Net.IpAddr :=
  value.asStr.bind fun text => Net.parseIpAddr text.toList

def asNonEmptyStr (value : Value) : Option String := value.asStr.filter fun text => !text.isEmpty

end Json.Value

namespace PodmanLens
open Json Net Text

inductive JsonValueKind
  | null
  | boolean
  | number
  | string
  | array
  | object
  deriving DecidableEq

def jsonValueKind : Value → JsonValueKind
  | .null => .null
  | .bool _ => .boolean
  | .number _ => .number
  | .string _ => .string
  | .array _ => .array
  | .object _ => .object

/-- What decoding leaves besides the decoded value. -/
inductive DecodingNote
  | finding (finding : InventoryFinding)
  | unmodelled (path : String) (kind : JsonValueKind)
  deriving DecidableEq

abbrev Decoder := Noted DecodingNote

namespace ObservationField
variable {α : Type}

def isMalformed : ObservationField α → Bool
  | .malformed => true
  | _ => false

def isObserved (field : ObservationField α) : Bool := field.toOption.isSome

@[simp] theorem isMalformed_absent : (absent : ObservationField α).isMalformed = false := rfl

@[simp] theorem isMalformed_observed (value : ObservedValue α) :
    (observed value).isMalformed = false := rfl

@[simp] theorem isMalformed_malformed : (malformed : ObservationField α).isMalformed = true := rfl

@[simp] theorem isMalformed_notApplicable :
    (notApplicable : ObservationField α).isMalformed = false := rfl

@[simp] theorem isMalformed_versionInapplicable :
    (versionInapplicable : ObservationField α).isMalformed = false := rfl

@[simp] theorem isMalformed_unmodelled (id : UnmodelledFieldId) :
    (unmodelled id : ObservationField α).isMalformed = false := rfl

end ObservationField

/-- A member that is there and not null. -/
def supplied : Option Value → Option Value
  | none | some .null => none
  | some value => some value

section Readers
variable {α : Type} (identity : ResourceIdentity)

def noteField (code : DiagnosticCode) (path : String) : Decoder Unit :=
  .note (.finding (.field code identity path))

def noteOccurrence (code : DiagnosticCode) (path : String) (occurrence : ℕ) : Decoder Unit :=
  .note (.finding (.atOccurrence code identity path occurrence))

def nativeMalformedField (path : String) : Decoder (ObservationField α) := do
  noteField identity .resourceMalformed path
  return .malformed

def nativeMalformedOccurrence (path : String) (occurrence : ℕ) : Decoder (ObservationField α) := do
  noteOccurrence identity .resourceMalformed path occurrence
  return .malformed

/-- A single value of an accepted form. -/
def scalarField (accept : Value → Option α) (value : Option Value) (path : String)
    (origin : ObservationOrigin) : Decoder (ObservationField α) :=
  match supplied value with
  | none => return .absent
  | some value =>
    match accept value with
    | some accepted => return .observed ⟨accepted, origin⟩
    | none => nativeMalformedField identity path

def nativeBoolField := scalarField identity Value.asBool

def nativeIpField := scalarField identity Value.asAddress

def nativeI64Field := scalarField identity Value.asI64

def nativeU64Field := scalarField identity Value.asU64

def nativeStringField := scalarField identity Value.asStr

def optionalStringField := scalarField identity Value.asNonEmptyStr

def optionalObservedString := scalarField identity Value.asStr

def nativeU32Field (value : Option Value) (path : String) : Decoder (ObservationField UInt32) :=
  scalarField identity Value.asU32 value path .effective

def optionalObservedU32 (value : Option Value) (path : String) :
    Decoder (ObservationField UInt32) := scalarField identity Value.asU32 value path .effective

def optionalObservedBool (value : Option Value) (path : String) :
    Decoder (ObservationField Bool) := scalarField identity Value.asBool value path .effective

/-- The accepted elements, or the index of the first one refused. -/
def acceptAll (accept : ℕ → Value → Option α) : ℕ → List Value → Except ℕ (List α)
  | _, [] => .ok []
  | index, value :: rest =>
    match accept index value with
    | none => .error index
    | some accepted => (acceptAll accept (index + 1) rest).map (accepted :: ·)

/-- An array of accepted elements. -/
def listField (accept : ℕ → Value → Option α) (value : Option Value) (path : String)
    (origin : ObservationOrigin) : Decoder (ObservationField (List α)) :=
  match supplied value with
  | none => return .absent
  | some (.array values) =>
    match acceptAll accept 0 values with
    | .ok accepted => return .observed ⟨accepted, origin⟩
    | .error index => nativeMalformedOccurrence identity path index
  | some _ => nativeMalformedField identity path

def nativeIpList := listField identity fun _ => Value.asAddress

def nativeStringList := listField identity fun _ value =>
  value.asStr.filter fun text => !text.isEmpty && !text.toList.any isControl

/-- Any string counts, but the strings themselves are not promoted. -/
def nativeUnmodelledStringList (value : Option Value) (path : String) (field : UnmodelledFieldId) :
    Decoder (ObservationField α) :=
  match supplied value with
  | none => return .absent
  | some (.array values) =>
    if values.any fun value => value.asStr.isNone then nativeMalformedField identity path
    else return .unmodelled field
  | some _ => nativeMalformedField identity path

/-- The number of members of an object whose values are never exposed. -/
def nativeOpaqueOptions (value : Option Value) (path : String) (origin : ObservationOrigin) :
    Decoder (ObservationField ℕ) :=
  match supplied value with
  | none => return .absent
  | some (.object options) => return .observed ⟨options.length, origin⟩
  | some _ => nativeMalformedField identity path

end Readers

section Forms
variable {α : Type} {identity : ResourceIdentity} {value : Option Value} {path : String}
  {origin : ObservationOrigin}

theorem supplied_eq_some {value : Option Value} {found : Value} (h : supplied value = some found) :
    value = some found := by
  unfold supplied at h
  split at h
  · cases h
  · cases h
  · exact congrArg some (Option.some.inj h)

@[simp] theorem value_nativeMalformedField (path : String) :
    (nativeMalformedField identity path : Decoder (ObservationField α)).value = .malformed := rfl

@[simp] theorem notes_nativeMalformedField (path : String) :
    (nativeMalformedField identity path : Decoder (ObservationField α)).notes =
      [.finding (.field .resourceMalformed identity path)] := rfl

/-- What reading a single value gives, case by case. -/
theorem value_scalarField (accept : Value → Option α) :
    (scalarField identity accept value path origin).value =
      match (supplied value).map accept with
      | none => .absent
      | some none => .malformed
      | some (some accepted) => .observed ⟨accepted, origin⟩ := by
  rw [scalarField]
  cases supplied value with
  | none => rfl
  | some found =>
      rw [Option.map_some]
      cases haccept : accept found with
      | none => simp only [haccept, value_nativeMalformedField]
      | some accepted => simp only [haccept, Noted.value_pure]

theorem scalarField_ne_notApplicable (accept : Value → Option α) :
    (scalarField identity accept value path origin).value ≠ .notApplicable := by
  rw [value_scalarField]
  split
  · exact fun h => nomatch h
  · exact fun h => nomatch h
  · exact fun h => nomatch h

end Forms

end PodmanLens
