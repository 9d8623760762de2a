import PodmanLens.FlagReading

/-!
# Mount flags read back

A short volume value is read at its two colons, and a mount value as comma-separated assignments.
On the text of a mount whose components are free of separators the readers return the declared
kind, source, destination, access, copy mode and subpath.
-/

namespace PodmanLens
open Options Text Validated

section Names

theorem isEmpty_of_validIdentifier {value : String} (h : validIdentifier value = true) :
    value.isEmpty = false := by
  simp only [validIdentifier, Bool.not_eq_true', Bool.or_eq_false_iff] at h
  exact h.1.1

theorem isEmpty_of_isAbsoluteNormalizedPath {value : String}
    (h : isAbsoluteNormalizedPath value = true) : value.isEmpty = false := by
  simp only [isAbsoluteNormalizedPath, Bool.and_eq_true] at h
  have hhead := h.1.1.1.2
  cases hempty : value.isEmpty with
  | false => rfl
  | true =>
      rw [String.isEmpty_iff] at hempty
      rw [hempty] at hhead
      cases hhead

end Names

section Mounts

inductive MountKind
  | volume
  | bind
  | tmpfs
  deriving DecidableEq

/-- A mount as values; only a volume has a copy mode, and a tmpfs has no source. -/
structure MountDeclaration where
  kind : MountKind
  source : Option String
  destination : String
  readOnly : Bool
  copyMode : Option NamedVolumeCopyMode
  subpath : Option String
  deriving DecidableEq

def declaredMount : MountIntent → MountDeclaration
  | .namedVolume mount => ⟨.volume, some mount.source.val.name, mount.destination.asStr,
      mount.access.isReadOnly, some mount.copyMode, mount.subpath.map Validated.Checked.asStr⟩
  | .bind mount => ⟨.bind, some mount.source.asStr, mount.destination.asStr,
      mount.access.isReadOnly, none, none⟩
  | .tmpfs mount => ⟨.tmpfs, none, mount.destination.asStr, mount.access.isReadOnly, none, none⟩

theorem isReadOnly_injective : Function.Injective MountAccess.isReadOnly := by
  intro a b h
  cases a with
  | readWrite | readOnly =>
      cases b with
      | readWrite | readOnly => first | rfl | cases h

theorem declaredMount_injective : Function.Injective declaredMount := by
  intro a b h
  have hpath {x y : AbsoluteContainerPath} (h : x.asStr = y.asStr) : x = y :=
    Validated.Checked.asStr_injective h
  cases a with
  | namedVolume mount =>
      cases b with
      | namedVolume other =>
          obtain ⟨source, destination, access, copyMode, subpath, _⟩ := mount
          obtain ⟨source', destination', access', copyMode', subpath', _⟩ := other
          simp only [declaredMount, MountDeclaration.mk.injEq, Option.some_inj, true_and] at h
          obtain ⟨hsource, hdestination, haccess, hcopy, hsubpath⟩ := h
          have hid : source = source' := Subtype.ext
            (DeploymentResourceId.eq_of_kind_name (source.2.trans source'.2.symm) hsource)
          have hsubpath : subpath = subpath' :=
            Option.map_injective Validated.Checked.asStr_injective hsubpath
          cases hid
          cases hpath hdestination
          cases isReadOnly_injective haccess
          cases hcopy
          cases hsubpath
          rfl
      | bind | tmpfs => simp [declaredMount] at h
  | bind mount =>
      cases b with
      | bind other =>
          obtain ⟨source, destination, access⟩ := mount
          obtain ⟨source', destination', access'⟩ := other
          simp only [declaredMount, MountDeclaration.mk.injEq, Option.some_inj, true_and,
            and_true] at h
          rw [hpath h.1, hpath h.2.1, isReadOnly_injective h.2.2]
      | namedVolume | tmpfs => simp [declaredMount] at h
  | tmpfs mount =>
      cases b with
      | tmpfs other =>
          obtain ⟨destination, access⟩ := mount
          obtain ⟨destination', access'⟩ := other
          simp only [declaredMount, MountDeclaration.mk.injEq, true_and, and_true] at h
          rw [hpath h.1, isReadOnly_injective h.2]
      | namedVolume | bind => simp [declaredMount] at h

def readVolumeFlag (value : String) : Option MountDeclaration :=
  match fields ':' value with
  | [source, destination, options] =>
    match fields ',' options with
    | [access, copyMode] => some ⟨.volume, some source, destination, access == "ro",
        some (if copyMode = "nocopy" then .noCopy else .copy), none⟩
    | _ => none
  | _ => none

def readMountKind : String → Option MountKind
  | "volume" => some .volume
  | "bind" => some .bind
  | "tmpfs" => some .tmpfs
  | _ => none

/-- The long syntax; a volume without a copy option copies. -/
def readMountFlag (value : String) : Option MountDeclaration := do
  let entries := entriesOf value
  let kind ← (assigned "type" entries).head? >>= readMountKind
  let destination ← (assigned "target" entries).head?
  return {
    kind
    source := (assigned "source" entries).head?
    destination
    readOnly := entries.contains ("readonly", none)
    copyMode := if kind = .volume then some .copy else none
    subpath := (assigned "subpath" entries).head? }

def readMountOption (occurrence : Occurrence) : Option MountDeclaration :=
  match occurrence.flag, occurrence.value with
  | "--volume", some value => readVolumeFlag value
  | "--mount", some value => readMountFlag value
  | _, _ => none

theorem readVolumeFlag_text {source destination : String} (hsource : ':' ∉ source.toList)
    (hdestination : ':' ∉ destination.toList) (access : MountAccess)
    (copyMode : NamedVolumeCopyMode) :
    readVolumeFlag (source ++ ":" ++ destination ++ ":" ++ accessName access ++ "," ++
      copyMode.asStr) = some ⟨.volume, some source, destination, access.isReadOnly,
        some copyMode, none⟩ := by
  have hoptions : ':' ∉ (accessName access ++ "," ++ copyMode.asStr).toList := by
    cases access <;> cases copyMode <;> decide
  have hlist : (source ++ ":" ++ destination ++ ":" ++ accessName access ++ "," ++
      copyMode.asStr).toList = source.toList ++ ':' :: (destination.toList ++ ':' ::
        (accessName access ++ "," ++ copyMode.asStr).toList) := by simp
  have hfields : fields ':' (source ++ ":" ++ destination ++ ":" ++ accessName access ++ "," ++
      copyMode.asStr) = [source, destination, accessName access ++ "," ++ copyMode.asStr] := by
    rw [fields, hlist, List.splitOn_append_cons_self_of_not_mem hsource,
      List.splitOn_append_cons_self_of_not_mem hdestination, List.splitOn_eq_singleton hoptions]
    simp [String.append_assoc]
  have hnames : fields ',' (accessName access ++ "," ++ copyMode.asStr) =
      [accessName access, copyMode.asStr] := by
    cases access <;> cases copyMode <;> decide
  have haccess : (accessName access == "ro") = access.isReadOnly := by
    cases access <;> decide
  have hcopyMode : (if copyMode.asStr = "nocopy" then NamedVolumeCopyMode.noCopy else .copy) =
      copyMode := by
    cases copyMode <;> decide
  rw [readVolumeFlag, hfields]
  dsimp only
  rw [hnames]
  dsimp only
  rw [haccess, hcopyMode]

/-- The assignments of a mount in the long syntax. -/
def mountFields (kind source destination : String) (access : MountAccess)
    (subpath : Option String) : List String :=
  ["type=" ++ kind] ++ (if source.isEmpty then [] else ["source=" ++ source]) ++
    ["target=" ++ destination] ++ (if access.isReadOnly then ["readonly"] else []) ++
    subpath.toList.map ("subpath=" ++ ·)

theorem mountCliValue_eq (kind source destination : String) (access : MountAccess)
    (subpath : Option String) : mountCliValue kind source destination access subpath =
      joinWith "," (mountFields kind source destination access subpath) := by
  apply String.toList_injective
  unfold mountCliValue mountFields
  cases source.isEmpty with
  | true =>
      cases access.isReadOnly with
      | true | false => cases subpath with
          | none | some => simp [joinWith]
  | false =>
      cases access.isReadOnly with
      | true | false => cases subpath with
          | none | some => simp [joinWith]

def mountEntries (kind source destination : String) (access : MountAccess)
    (subpath : Option String) : List (String × Option String) :=
  [("type", some kind)] ++ (if source.isEmpty then [] else [("source", some source)]) ++
    [("target", some destination)] ++ (if access.isReadOnly then [("readonly", none)] else []) ++
    subpath.toList.map fun path => ("subpath", some path)

theorem entriesOf_mountCliValue {kind source destination : String} {subpath : Option String}
    (hkind : ',' ∉ kind.toList) (hsource : ',' ∉ source.toList)
    (hdestination : ',' ∉ destination.toList) (hsubpath : ∀ path ∈ subpath, ',' ∉ path.toList)
    (access : MountAccess) : entriesOf (mountCliValue kind source destination access subpath) =
      mountEntries kind source destination access subpath := by
  have hplain : ∀ part ∈ mountFields kind source destination access subpath,
      ',' ∉ part.toList := by
    intro part hpart
    simp only [mountFields, List.mem_append, List.mem_singleton, List.mem_map,
      Option.mem_toList] at hpart
    rcases hpart with (((rfl | hpart) | rfl) | hpart) | ⟨path, hpath, rfl⟩
    · exact notMem_append (by decide) hkind
    · split_ifs at hpart
      · cases hpart
      · rw [List.mem_singleton.mp hpart]
        exact notMem_append (by decide) hsource
    · exact notMem_append (by decide) hdestination
    · split_ifs at hpart
      · rw [List.mem_singleton.mp hpart]
        decide
      · cases hpart
    · exact notMem_append (by decide) (hsubpath path hpath)
  have htype := assignment_literal (by decide : "type=" = "type" ++ "=") (by decide)
  have hsourceKey := assignment_literal (by decide : "source=" = "source" ++ "=") (by decide)
  have htarget := assignment_literal (by decide : "target=" = "target" ++ "=") (by decide)
  have hsubpathKey := assignment_literal (by decide : "subpath=" = "subpath" ++ "=") (by decide)
  have hreadonly : assignment "readonly" = ("readonly", none) := assignment_of_notMem (by decide)
  rw [entriesOf, mountCliValue_eq]
  have hfields : fields ',' (joinWith "," (mountFields kind source destination access subpath)) =
      mountFields kind source destination access subpath :=
    fields_joinWith (by simp [mountFields]) hplain
  rw [hfields, mountFields, mountEntries]
  simp only [List.map_append, List.map_cons, List.map_nil, List.map_map, Function.comp_def,
    apply_ite (List.map assignment), htype, hsourceKey, htarget, hsubpathKey, hreadonly]

theorem readMountFlag_text {kind source destination : String} {subpath : Option String}
    {mountKind : MountKind} (hkind : readMountKind kind = some mountKind)
    (hsource : ',' ∉ source.toList) (hdestination : ',' ∉ destination.toList)
    (hsubpath : ∀ path ∈ subpath, ',' ∉ path.toList) (access : MountAccess) :
    readMountFlag (mountCliValue kind source destination access subpath) =
      some ⟨mountKind, if source.isEmpty then none else some source, destination,
        access.isReadOnly, if mountKind = .volume then some .copy else none, subpath⟩ := by
  have hcomma : ',' ∉ kind.toList := by
    unfold readMountKind at hkind
    split at hkind
    · decide
    · decide
    · decide
    · cases hkind
  rw [readMountFlag, entriesOf_mountCliValue hcomma hsource hdestination hsubpath]
  unfold mountEntries
  cases source.isEmpty with
  | true | false =>
      cases access.isReadOnly with
      | true | false =>
          cases subpath with
          | none | some => simp [hkind, assigned]

theorem readMountOption_eq {mount : MountIntent} (h : mountSafe mount = true) :
    readMountOption (mountOption mount) = some (declaredMount mount) := by
  simp only [mountSafe, Bool.and_eq_true] at h
  obtain ⟨⟨hsource, hdestination⟩, hsubpath⟩ := h
  have hsource := separators_notMem hsource
  have hdestination := separators_notMem hdestination
  cases mount with
  | namedVolume mount =>
      cases hpath : mount.subpath with
      | none =>
          rw [mountOption, declaredMount, hpath]
          exact readVolumeFlag_text hsource.1 hdestination.1 mount.access mount.copyMode
      | some subpath =>
          have hcopy : mount.copyMode = .copy := mount.subpath_copy (by rw [hpath]; rfl)
          have hname : mount.source.val.name.isEmpty = false :=
            isEmpty_of_validIdentifier mount.source.val.identifier
          simp only [mountSubpath, hpath, Option.all_some] at hsubpath
          have hplain : ∀ path ∈ some subpath.asStr, ',' ∉ path.toList := by
            rintro path ⟨⟩
            exact (separators_notMem hsubpath).2
          have hread := readMountFlag_text (by rfl : readMountKind "volume" = _) hsource.2
            hdestination.2 hplain mount.access
          rw [mountSource, hname] at hread
          rw [mountOption, declaredMount, hpath, hcopy]
          exact hread
  | bind mount =>
      have hname : mount.source.asStr.isEmpty = false :=
        isEmpty_of_isAbsoluteNormalizedPath mount.source.accepted
      have hplain : ∀ path ∈ (none : Option String), ',' ∉ path.toList := by simp
      have hread := readMountFlag_text (by rfl : readMountKind "bind" = _) hsource.2
        hdestination.2 hplain mount.access
      rw [mountSource, hname] at hread
      exact hread
  | tmpfs mount =>
      exact readMountFlag_text (by rfl : readMountKind "tmpfs" = _) hsource.2 hdestination.2
        (by simp) mount.access

end Mounts

end PodmanLens
