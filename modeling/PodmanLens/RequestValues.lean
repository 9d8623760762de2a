import PodmanLens.SecretFlags

/-!
# Request members read back

The members of a Libpod body for attachments, mounts and grants are read back to the same
declarations as the flags. The request spells out two values that the command line leaves open: the
source of a tmpfs and the mode of a mounted secret.
-/

namespace PodmanLens
open Net Text Json Validated

section Members

def memberStrings (value : Value) (key : String) : List String :=
  ((value.member key).map Value.strings).getD []

def memberString (value : Value) (key : String) : Option String :=
  value.member key >>= Value.asString

def memberNumber (value : Value) (key : String) : Option ℕ :=
  (value.member key >>= Value.asNumber).map Int.toNat

def readNetworkMember (entry : String × Value) : NetworkDeclaration where
  network := entry.1
  aliases := memberStrings entry.2 "aliases"
  ipv4 := (memberStrings entry.2 "static_ips").find? fun address => !address.toList.contains ':'
  ipv6 := (memberStrings entry.2 "static_ips").find? fun address => address.toList.contains ':'
  mac := memberString entry.2 "static_mac"

def readVolumeMember (value : Value) : Option MountDeclaration := do
  let source ← memberString value "Name"
  let destination ← memberString value "Dest"
  let options := memberStrings value "Options"
  return ⟨.volume, some source, destination, options.contains "ro",
    some (if options.contains "nocopy" then .noCopy else .copy), memberString value "SubPath"⟩

/-- A tmpfs names its type as its source. -/
def readMountMember (value : Value) : Option MountDeclaration := do
  let kind ← memberString value "type" >>= readMountKind
  let source ← memberString value "source"
  let destination ← memberString value "destination"
  return ⟨kind, if kind = .tmpfs then none else some source, destination,
    (memberStrings value "options").contains "ro", none, none⟩

def readSecretMember (value : Value) : Option SecretDeclaration := do
  let source ← memberString value "Source"
  return ⟨source, false, memberString value "Target", memberNumber value "UID",
    memberNumber value "GID", memberNumber value "Mode"⟩

def readSecretEnvironment (entry : String × Value) : Option SecretDeclaration := do
  let source ← entry.2.asString
  return ⟨source, true, some entry.1, none, none, none⟩

def requestNetworks (body : Members) : List NetworkDeclaration :=
  (((lookup body "Networks").map Value.members).getD []).map readNetworkMember

def requestVolumes (body : Members) : List (Option MountDeclaration) :=
  (((lookup body "volumes").map Value.elements).getD []).map readVolumeMember

def requestMounts (body : Members) : List (Option MountDeclaration) :=
  (((lookup body "mounts").map Value.elements).getD []).map readMountMember

def requestSecrets (body : Members) : List (Option SecretDeclaration) :=
  (((lookup body "secrets").map Value.elements).getD []).map readSecretMember ++
    (((lookup body "secret_env").map Value.members).getD []).map readSecretEnvironment

/-- The request spells out the mode that the command line leaves to its default. -/
def SecretDeclaration.withDefaultMode (declaration : SecretDeclaration) : SecretDeclaration :=
  if declaration.environment then declaration
  else { declaration with mode := some (declaration.mode.getD 0o444) }

theorem find_addresses (ipv4 : Option { a : IpAddr // a.isIpv4 = true })
    (ipv6 : Option { a : IpAddr // a.isIpv4 = false }) :
    let addresses := (ipv4.toList.map Subtype.val ++ ipv6.toList.map Subtype.val).map IpAddr.display
    addresses.find? (fun address => !address.toList.contains ':') =
        ipv4.map (fun ipv4 => ipv4.val.display) ∧
      addresses.find? (fun address => address.toList.contains ':') =
        ipv6.map (fun ipv6 => ipv6.val.display) := by
  have hfour (a : { a : IpAddr // a.isIpv4 = true }) : ':' ∉ a.val.display.toList := by
    rw [IpAddr.colon_mem_display_iff, a.2]
    decide
  have hsix (a : { a : IpAddr // a.isIpv4 = false }) : ':' ∈ a.val.display.toList :=
    a.val.colon_mem_display_iff.mpr a.2
  cases ipv4 with
  | none | some =>
      cases ipv6 with
      | none | some => simp [hfour, hsix]

theorem readNetworkMember_eq (attachment : NetworkAttachment) :
    readNetworkMember (attachment.network.val.name, .object (networkOptionsJson attachment)) =
      declaredNetwork attachment := by
  have hstrings (values : List String) :
      ((if values.isEmpty then none else some (stringArray values)).map Value.strings).getD [] =
        values := by
    cases values with
    | nil => rfl
    | cons value rest => simp
  have hmac : (attachment.staticMac.map fun mac => Value.string mac.asStr) >>= Value.asString =
      attachment.staticMac.map StaticMacAddress.asStr := by
    cases attachment.staticMac <;> rfl
  obtain ⟨hipv4, hipv6⟩ := find_addresses attachment.staticIpv4 attachment.staticIpv6
  simp only [readNetworkMember, memberStrings, memberString, Value.member, networkOptionsJson,
    lookup_insertSome, lookup, String.reduceEq, if_true, if_false, Option.or_none, hstrings, hmac,
    hipv4, hipv6, declaredNetwork]

theorem readVolumeMember_eq (mount : NamedVolumeMount) :
    readVolumeMember (namedVolumeJson mount) = some (declaredMount (.namedVolume mount)) := by
  obtain ⟨source, destination, access, copyMode, subpath, hcopy⟩ := mount
  cases subpath with
  | none =>
      cases access with
      | readWrite | readOnly =>
          cases copyMode with
          | copy | noCopy =>
              simp [readVolumeMember, namedVolumeJson, memberString, memberStrings, Value.member,
                ofPairs, lookup_insert, lookup, Value.asString, declaredMount, accessName,
                MountAccess.isReadOnly, NamedVolumeCopyMode.asStr]
  | some subpath =>
      cases hcopy rfl
      simp [readVolumeMember, namedVolumeJson, memberString, memberStrings, Value.member,
        ofPairs, lookup_insert, Value.asString, declaredMount]

theorem readVolumes_eq (mounts : List MountIntent) :
    (mountJson mounts).map readVolumeMember =
      ((mounts.map declaredMount).filter fun mount => mount.kind = .volume).map some := by
  induction mounts with
  | nil => rfl
  | cons mount rest ih =>
      cases mount with
      | namedVolume mount =>
          change readVolumeMember (namedVolumeJson mount) :: (mountJson rest).map readVolumeMember =
            some (declaredMount (.namedVolume mount)) :: _
          rw [readVolumeMember_eq, ih]
      | bind | tmpfs => exact ih

/-- A bind or tmpfs mount of the request. -/
theorem readMountMember_eq {kind source : String} {mountKind : MountKind}
    (hkind : readMountKind kind = some mountKind) (destination : String) (access : MountAccess) :
    readMountMember (.object <| ofPairs [("destination", .string destination),
      ("type", .string kind), ("source", .string source),
      ("options", stringArray [accessName access])]) =
      some ⟨mountKind, if mountKind = .tmpfs then none else some source, destination,
        access.isReadOnly, none, none⟩ := by
  cases access with
  | readWrite | readOnly =>
      simp [readMountMember, memberString, memberStrings, Value.member, ofPairs, lookup_insert,
        Value.asString, hkind, accessName, MountAccess.isReadOnly]

theorem readMounts_eq (mounts : List MountIntent) :
    (nativeMountJson mounts).map readMountMember =
      ((mounts.map declaredMount).filter fun mount => mount.kind ≠ .volume).map some := by
  induction mounts with
  | nil => rfl
  | cons mount rest ih =>
      cases mount with
      | namedVolume => exact ih
      | bind mount =>
          change readMountMember _ :: (nativeMountJson rest).map readMountMember =
            some (declaredMount (.bind mount)) :: _
          rw [readMountMember_eq (by rfl : readMountKind "bind" = some .bind), ih]
          rfl
      | tmpfs mount =>
          change readMountMember _ :: (nativeMountJson rest).map readMountMember =
            some (declaredMount (.tmpfs mount)) :: _
          rw [readMountMember_eq (by rfl : readMountKind "tmpfs" = some .tmpfs), ih]
          rfl

theorem readSecretMembers_eq (grants : List SecretGrant) :
    (grants.filterMap secretMountJson).map readSecretMember =
      (((grants.map declaredSecret).filter fun grant => !grant.environment).map
        SecretDeclaration.withDefaultMode).map some := by
  induction grants with
  | nil => rfl
  | cons grant rest ih =>
      cases grant with
      | environment => exact ih
      | mount source target uid gid mode =>
          rw [List.filterMap_cons_some (by rfl)]
          change readSecretMember _ :: (rest.filterMap secretMountJson).map readSecretMember =
            some (declaredSecret (.mount source target uid gid mode)).withDefaultMode :: _
          rw [ih]
          congr 1
          have htarget : (target.map fun target => Value.string target.asStr) >>= Value.asString =
              target.map Checked.asStr := by
            cases target <;> rfl
          have hid (setting : Option UnixId) :
              ((setting.map fun id => Value.number id.val) >>= Value.asNumber).map Int.toNat =
                setting.map Subtype.val := by
            cases setting <;> rfl
          simp only [readSecretMember, memberString, memberNumber, Value.member, lookup_insert,
            lookup_insertSome, lookup, String.reduceEq, if_true, if_false, Option.or_none, htarget,
            hid]
          cases mode <;> rfl

theorem readSecretEnvironments_eq (grants : List SecretGrant) :
    (grants.filterMap secretEnvironmentJson).map readSecretEnvironment =
      (((grants.map declaredSecret).filter fun grant => grant.environment).map
        SecretDeclaration.withDefaultMode).map some := by
  induction grants with
  | nil => rfl
  | cons grant rest ih =>
      cases grant with
      | mount => exact ih
      | environment source target =>
          change readSecretEnvironment _ :: (rest.filterMap secretEnvironmentJson).map
            readSecretEnvironment = some (declaredSecret (.environment source target)) :: _
          rw [ih]
          rfl

end Members

end PodmanLens
