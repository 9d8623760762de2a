import PodmanLens.MountFlags

/-!
# Secret flags read back

A secret value is read as comma-separated assignments, its ids in decimal and its mode in octal. On
the text of a grant whose components are free of separators the reader returns the declared values.
-/

namespace PodmanLens
open Options Text Validated

section Secrets

/-- A grant as values; only a mounted secret has an owner and a mode. -/
structure SecretDeclaration where
  source : String
  environment : Bool
  target : Option String
  uid : Option ℕ
  gid : Option ℕ
  mode : Option ℕ
  deriving DecidableEq

def declaredSecret : SecretGrant → SecretDeclaration
  | .mount source target uid gid mode => ⟨source.val.name, false, target.map Checked.asStr,
      uid.map Subtype.val, gid.map Subtype.val, mode.map Subtype.val⟩
  | .environment source target => ⟨source.val.name, true, some target.asStr, none, none, none⟩

theorem declaredSecret_injective : Function.Injective declaredSecret := by
  intro a b h
  have hid {x y : OfKind .secret} (h : x.val.name = y.val.name) : x = y :=
    Subtype.ext (DeploymentResourceId.eq_of_kind_name (x.2.trans y.2.symm) h)
  cases a with
  | mount source target uid gid mode =>
      cases b with
      | mount source' target' uid' gid' mode' =>
          simp only [declaredSecret, SecretDeclaration.mk.injEq, true_and] at h
          obtain ⟨hsource, htarget, huid, hgid, hmode⟩ := h
          rw [hid hsource, Option.map_injective Checked.asStr_injective htarget,
            Option.map_injective Subtype.val_injective huid,
            Option.map_injective Subtype.val_injective hgid,
            Option.map_injective Subtype.val_injective hmode]
      | environment => simp [declaredSecret] at h
  | environment source target =>
      cases b with
      | environment source' target' =>
          simp only [declaredSecret, SecretDeclaration.mk.injEq, Option.some_inj, true_and,
            and_true] at h
          rw [hid h.1, Checked.asStr_injective h.2]
      | mount => simp [declaredSecret] at h

def readDigits (base : ℕ) (text : String) : ℕ := Nat.ofDigitChars base text.toList 0

theorem readDigits_repr (n : ℕ) : readDigits 10 n.repr = n := by
  rw [readDigits, Nat.toList_repr]
  exact Nat.ofDigitChars_toDigits (by decide) (by decide)

theorem readDigits_octal (n : ℕ) : readDigits 8 (octal n) = n := by
  rw [readDigits, octal, String.toList_ofList]
  exact Nat.ofDigitChars_toDigits (by decide) (by decide)

def readSecretKind : String → Option Bool
  | "mount" => some false
  | "env" => some true
  | _ => none

def readSecretFlag (value : String) : Option SecretDeclaration := do
  let entries := entriesOf value
  let environment ← (assigned "type" entries).head? >>= readSecretKind
  let source ← (assigned "source" entries).head?
  return {
    source
    environment
    target := (assigned "target" entries).head?
    uid := (assigned "uid" entries).head?.map (readDigits 10)
    gid := (assigned "gid" entries).head?.map (readDigits 10)
    mode := (assigned "mode" entries).head?.map (readDigits 8) }

/-- The assignments of a grant. -/
def secretFields : SecretGrant → List String
  | .mount source target uid gid mode =>
    ["source=" ++ source.val.name, "type=mount"] ++
      target.toList.map (fun target => "target=" ++ target.asStr) ++
      uid.toList.map (fun id => "uid=" ++ id.val.repr) ++
      gid.toList.map (fun id => "gid=" ++ id.val.repr) ++
      mode.toList.map fun mode => "mode=" ++ octal mode.val
  | .environment source target =>
    ["source=" ++ source.val.name, "type=env", "target=" ++ target.asStr]

theorem secretText_eq (grant : SecretGrant) : secretText grant = joinWith "," (secretFields grant) := by
  apply String.toList_injective
  cases grant with
  | mount source target uid gid mode =>
      cases target with
      | none | some =>
          cases uid with
          | none | some =>
              cases gid with
              | none | some =>
                  cases mode with
                  | none | some => simp [secretText, secretFields, optionText, joinWith]
  | environment => simp [secretText, secretFields, joinWith]

def secretEntries : SecretGrant → List (String × Option String)
  | .mount source target uid gid mode =>
    [("source", some source.val.name), ("type", some "mount")] ++
      target.toList.map (fun target => ("target", some target.asStr)) ++
      uid.toList.map (fun id => ("uid", some id.val.repr)) ++
      gid.toList.map (fun id => ("gid", some id.val.repr)) ++
      mode.toList.map fun mode => ("mode", some (octal mode.val))
  | .environment source target =>
    [("source", some source.val.name), ("type", some "env"), ("target", some target.asStr)]

/-- An environment name holds letters, digits and underscores only. -/
theorem notMem_of_isEnvironmentName {value : String} (h : isEnvironmentName value = true) {c : Char}
    (halphanum : c.isAlphanum = false) (hunderscore : c ≠ '_') : c ∉ value.toList := by
  intro hmem
  unfold isEnvironmentName at h
  cases hlist : value.toList with
  | nil =>
      rw [hlist] at hmem
      cases hmem
  | cons first rest =>
      rw [hlist] at h hmem
      simp only [Bool.and_eq_true, List.all_eq_true, Bool.or_eq_true, beq_iff_eq] at h
      rcases List.mem_cons.mp hmem with rfl | hmem
      · have halpha : c.isAlpha = false := by
          rw [Char.isAlphanum, Bool.or_eq_false_iff] at halphanum
          exact halphanum.1
        simp [halpha, hunderscore] at h
      · have hrest := h.2 c hmem
        simp [halphanum, hunderscore] at hrest

theorem comma_notMem_secretFields {grant : SecretGrant} (h : secretSafe grant = true) :
    ∀ field ∈ secretFields grant, ',' ∉ field.toList := by
  simp only [secretSafe, Bool.and_eq_true, Option.all_eq_true] at h
  have hsource := (separators_notMem h.1).2
  intro field hmem
  cases grant with
  | mount source target uid gid mode =>
      have hdigits {base : ℕ} (hlow : 0 < base) (hhigh : base ≤ 10) (n : ℕ) :
          ',' ∉ Nat.toDigits base n := fun hcomma =>
        absurd (Nat.isDigit_of_mem_toDigits hlow hhigh hcomma) (by decide)
      have hrepr (n : ℕ) : ',' ∉ n.repr.toList := by
        rw [Nat.toList_repr]
        exact hdigits (by decide) (by decide) n
      have hoctal (n : ℕ) : ',' ∉ (octal n).toList := by
        rw [octal, String.toList_ofList]
        exact hdigits (by decide) (by decide) n
      simp only [secretFields, List.mem_append, List.mem_cons, List.not_mem_nil, or_false,
        List.mem_map, Option.mem_toList] at hmem
      rcases hmem with ((((rfl | rfl) | ⟨path, hpath, rfl⟩) | ⟨id, -, rfl⟩) | ⟨id, -, rfl⟩) |
        ⟨bits, -, rfl⟩
      · exact notMem_append (by decide) hsource
      · decide
      · exact notMem_append (by decide) (separators_notMem (h.2 path hpath)).2
      · exact notMem_append (by decide) (hrepr id.val)
      · exact notMem_append (by decide) (hrepr id.val)
      · exact notMem_append (by decide) (hoctal bits.val)
  | environment source target =>
      have htarget := notMem_of_isEnvironmentName target.accepted (c := ',') (by decide) (by decide)
      simp only [secretFields, List.mem_cons, List.not_mem_nil, or_false] at hmem
      rcases hmem with rfl | rfl | rfl
      · exact notMem_append (by decide) hsource
      · decide
      · exact notMem_append (by decide) htarget

theorem entriesOf_secretText {grant : SecretGrant} (h : secretSafe grant = true) :
    entriesOf (secretText grant) = secretEntries grant := by
  have hsource := assignment_literal (by decide : "source=" = "source" ++ "=") (by decide)
  have htarget := assignment_literal (by decide : "target=" = "target" ++ "=") (by decide)
  have huid := assignment_literal (by decide : "uid=" = "uid" ++ "=") (by decide)
  have hgid := assignment_literal (by decide : "gid=" = "gid" ++ "=") (by decide)
  have hmode := assignment_literal (by decide : "mode=" = "mode" ++ "=") (by decide)
  have hmount : assignment "type=mount" = ("type", some "mount") := by decide
  have henv : assignment "type=env" = ("type", some "env") := by decide
  have hfields : fields ',' (joinWith "," (secretFields grant)) = secretFields grant := by
    apply fields_joinWith ?_ (comma_notMem_secretFields h)
    cases grant with
    | mount | environment => simp [secretFields]
  rw [entriesOf, secretText_eq, hfields]
  cases grant with
  | mount source target uid gid mode =>
      simp only [secretFields, secretEntries, List.map_append, List.map_cons, List.map_nil,
        List.map_map, Function.comp_def, hsource, htarget, huid, hgid, hmode, hmount]
  | environment source target =>
      simp only [secretFields, secretEntries, List.map_cons, List.map_nil, hsource, htarget, henv]

theorem readSecretFlag_eq {grant : SecretGrant} (h : secretSafe grant = true) :
    readSecretFlag (secretText grant) = some (declaredSecret grant) := by
  rw [readSecretFlag, entriesOf_secretText h]
  cases grant with
  | mount source target uid gid mode =>
      have hhead {α : Type} (setting : Option α) (text : α → String) :
          (setting.toList.map text).head? = setting.map text := by
        cases setting <;> rfl
      simp only [secretEntries, assigned_append, assigned_map, assigned_cons, String.reduceEq,
        if_true, if_false, List.append_nil, List.nil_append, assigned_nil, hhead]
      have huid (setting : Option UnixId) : (setting.map fun id => id.val.repr).map (readDigits 10) =
          setting.map Subtype.val := by
        rw [Option.map_map, Function.comp_def]
        simp only [readDigits_repr]
      have hmode : (mode.map fun bits => octal bits.val).map (readDigits 8) =
          mode.map Subtype.val := by
        rw [Option.map_map, Function.comp_def]
        simp only [readDigits_octal]
      rw [huid, huid, hmode]
      rfl
  | environment source target => rfl

end Secrets

end PodmanLens
