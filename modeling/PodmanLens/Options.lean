import Mathlib.Data.List.Basic
import Mathlib.Data.List.Perm.Basic

/-!
# Options before operands

A command line lists options, each a flag with or without a value, and then its operands. `read`
takes words as options while they begin with a dash, and a flag of `valued` takes the word after
it. It reads back what `encode` wrote when no operand is taken for an option. Segments of options
whose flags come from disjoint groups are determined by their concatenation.
-/

namespace Options

structure Occurrence where
  flag : String
  value : Option String
  deriving DecidableEq

def Occurrence.words (occurrence : Occurrence) : List String :=
  occurrence.flag :: occurrence.value.toList

def encode (options : List Occurrence) : List String := options.flatMap Occurrence.words

def Dashed (word : String) : Prop := word.toList.head? = some '-'

instance (word : String) : Decidable (Dashed word) := inferInstanceAs (Decidable (_ = _))

/-- The options up to the first word without a dash, and the words from there on. -/
def read (valued : List String) : List String → List Occurrence × List String
  | [] => ([], [])
  | word :: rest =>
    if Dashed word then
      if word ∈ valued then
        match rest with
        | [] => ([⟨word, none⟩], [])
        | value :: rest =>
          let read := read valued rest
          (⟨word, some value⟩ :: read.1, read.2)
      else
        let read := read valued rest
        (⟨word, none⟩ :: read.1, read.2)
    else ([], word :: rest)

@[simp] theorem encode_nil : encode [] = [] := rfl

@[simp] theorem encode_append (front back : List Occurrence) :
    encode (front ++ back) = encode front ++ encode back := List.flatMap_append

/-- The flag is one that `read` takes with this many words. -/
def Occurrence.Fits (valued : List String) (occurrence : Occurrence) : Prop :=
  Dashed occurrence.flag ∧ (occurrence.flag ∈ valued ↔ occurrence.value.isSome)

instance (valued : List String) (occurrence : Occurrence) : Decidable (occurrence.Fits valued) :=
  inferInstanceAs (Decidable (_ ∧ _))

section Read

variable {valued : List String} {word : String}

theorem read_switch (hdashed : Dashed word) (hword : word ∉ valued) (rest : List String) :
    read valued (word :: rest) = (⟨word, none⟩ :: (read valued rest).1, (read valued rest).2) := by
  cases rest with
  | nil => simp only [read, if_pos hdashed, if_neg hword]
  | cons value rest => rw [read, if_pos hdashed, if_neg hword]

theorem read_valued (hdashed : Dashed word) (hword : word ∈ valued) (value : String)
    (rest : List String) : read valued (word :: value :: rest) =
      (⟨word, some value⟩ :: (read valued rest).1, (read valued rest).2) := by
  rw [read, if_pos hdashed, if_pos hword]

theorem read_of_not_dashed {operands : List String}
    (h : ∀ word ∈ operands.head?, ¬Dashed word) : read valued operands = ([], operands) := by
  cases operands with
  | nil => rfl
  | cons word rest =>
      have hword := h word rfl
      cases rest with
      | nil => rw [read, if_neg hword]
      | cons value rest => rw [read, if_neg hword]

theorem read_encode {options : List Occurrence} {operands : List String}
    (hoptions : ∀ occurrence ∈ options, occurrence.Fits valued)
    (hoperands : ∀ word ∈ operands.head?, ¬Dashed word) :
    read valued (encode options ++ operands) = (options, operands) := by
  induction options with
  | nil => exact read_of_not_dashed hoperands
  | cons occurrence rest ih =>
      have hrest := ih fun other hother => hoptions other (List.mem_cons_of_mem _ hother)
      obtain ⟨hdashed, hvalued⟩ := hoptions occurrence List.mem_cons_self
      obtain ⟨flag, value⟩ := occurrence
      cases value with
      | none =>
          have hflag : flag ∉ valued := fun hmem => by simpa using hvalued.mp hmem
          change read valued (flag :: (encode rest ++ operands)) = _
          rw [read_switch hdashed hflag, hrest]
      | some value =>
          have hflag : flag ∈ valued := hvalued.mpr rfl
          change read valued (flag :: value :: (encode rest ++ operands)) = _
          rw [read_valued hdashed hflag, hrest]

end Read

def valuesOf (flag : String) (options : List Occurrence) : List String :=
  options.filterMap fun occurrence => if occurrence.flag = flag then occurrence.value else none

theorem valuesOf_append (flag : String) (front back : List Occurrence) :
    valuesOf flag (front ++ back) = valuesOf flag front ++ valuesOf flag back :=
  List.filterMap_append

section Segments

variable {α : Type*}

theorem append_inj_of_forall {p : α → Prop} {a b x y : List α} (ha : ∀ i ∈ a, p i)
    (hb : ∀ i ∈ b, p i) (hx : ∀ i ∈ x, ¬p i) (hy : ∀ i ∈ y, ¬p i) (h : a ++ x = b ++ y) :
    a = b ∧ x = y := by
  classical
  have hkept := congrArg (List.filter fun i => decide (p i)) h
  have hself {l : List α} (hl : ∀ i ∈ l, p i) : l.filter (fun i => decide (p i)) = l :=
    List.filter_eq_self.mpr (by simpa using hl)
  have hnil {l : List α} (hl : ∀ i ∈ l, ¬p i) : l.filter (fun i => decide (p i)) = [] :=
    List.filter_eq_nil_iff.mpr (by simpa using hl)
  rw [List.filter_append, List.filter_append, hself ha, hself hb, hnil hx, hnil hy,
    List.append_nil, List.append_nil] at hkept
  exact ⟨hkept, List.append_cancel_left (hkept ▸ h)⟩

/-- Flags of one segment, which all take a value or all stand alone. -/
structure Group where
  flags : List String
  takesValue : Bool

def Group.taking (flag : String) : Group := ⟨[flag], true⟩

/-- Every segment takes its options from the group at its position. -/
def Grouped : List Group → List (List Occurrence) → Prop :=
  List.Forall₂ fun group segment => ∀ occurrence ∈ segment,
    occurrence.flag ∈ group.flags ∧ occurrence.value.isSome = group.takesValue

theorem grouped_bare (groups : List Group) : Grouped groups (groups.map fun _ => []) := by
  rw [Grouped, List.forall₂_map_right_iff, List.forall₂_same]
  simp

theorem Grouped.append {front back : List Group} {first second : List (List Occurrence)}
    (hfirst : Grouped front first) (hsecond : Grouped back second) :
    Grouped (front ++ back) (first ++ second) := List.rel_append hfirst hsecond

def flagsOf (groups : List Group) : List String := groups.flatMap Group.flags

def valuedFlags (groups : List Group) : List String := flagsOf (groups.filter Group.takesValue)

/-- No flag is in two groups, and every flag begins with a dash. -/
def WellFormed (groups : List Group) : Prop :=
  (flagsOf groups).Nodup ∧ ∀ flag ∈ flagsOf groups, Dashed flag

instance (groups : List Group) : Decidable (WellFormed groups) :=
  inferInstanceAs (Decidable (_ ∧ _))

variable {groups : List Group} {segments : List (List Occurrence)}

theorem Grouped.exists_group (h : Grouped groups segments) {occurrence : Occurrence}
    (hmem : occurrence ∈ segments.flatten) : ∃ group ∈ groups, occurrence.flag ∈ group.flags ∧
      occurrence.value.isSome = group.takesValue := by
  induction h with
  | nil => cases hmem
  | cons hhead _ ih =>
      rw [List.flatten_cons, List.mem_append] at hmem
      rcases hmem with hmem | hmem
      · exact ⟨_, List.mem_cons_self, hhead occurrence hmem⟩
      · obtain ⟨group, hgroup, hfits⟩ := ih hmem
        exact ⟨group, List.mem_cons_of_mem _ hgroup, hfits⟩

theorem Grouped.flag_mem (h : Grouped groups segments) {occurrence : Occurrence}
    (hmem : occurrence ∈ segments.flatten) : occurrence.flag ∈ flagsOf groups := by
  obtain ⟨group, hgroup, hflag, -⟩ := h.exists_group hmem
  exact List.mem_flatMap.mpr ⟨group, hgroup, hflag⟩

/-- A flag is in one group only. -/
theorem group_unique (hgroups : (flagsOf groups).Nodup) {first second : Group} {flag : String}
    (hfirst : first ∈ groups) (hsecond : second ∈ groups) (hflag : flag ∈ first.flags)
    (hother : flag ∈ second.flags) : first = second := by
  induction groups with
  | nil => cases hfirst
  | cons group rest ih =>
      rw [flagsOf, List.flatMap_cons, List.nodup_append] at hgroups
      obtain ⟨-, hrest, hdisjoint⟩ := hgroups
      have hout {other : Group} (hmem : other ∈ rest) (hflags : flag ∈ other.flags) :
          flag ∉ group.flags := fun hgroup =>
        hdisjoint flag hgroup flag (List.mem_flatMap.mpr ⟨other, hmem, hflags⟩) rfl
      rcases List.mem_cons.mp hfirst with rfl | hfirstRest
      · rcases List.mem_cons.mp hsecond with rfl | hsecondRest
        · rfl
        · exact absurd hflag (hout hsecondRest hother)
      · rcases List.mem_cons.mp hsecond with rfl | hsecondRest
        · exact absurd hother (hout hfirstRest hflag)
        · exact ih hrest hfirstRest hsecondRest

theorem Grouped.fits (h : Grouped groups segments) (hgroups : WellFormed groups)
    {occurrence : Occurrence} (hmem : occurrence ∈ segments.flatten) :
    occurrence.Fits (valuedFlags groups) := by
  obtain ⟨group, hgroup, hflag, hvalue⟩ := h.exists_group hmem
  refine ⟨hgroups.2 _ (h.flag_mem hmem), ?_⟩
  rw [hvalue, valuedFlags, flagsOf, List.mem_flatMap]
  constructor
  · rintro ⟨other, hother, hflags⟩
    rw [List.mem_filter] at hother
    rw [group_unique hgroups.1 hgroup hother.1 hflag hflags]
    exact hother.2
  · intro htakes
    exact ⟨group, List.mem_filter.mpr ⟨hgroup, htakes⟩, hflag⟩

/-- The options of a command line are read back, and its operands are left. -/
theorem Grouped.read_encode (h : Grouped groups segments) (hgroups : WellFormed groups)
    {operands : List String} (hoperands : ∀ word ∈ operands.head?, ¬Dashed word) :
    read (valuedFlags groups) (encode segments.flatten ++ operands) =
      (segments.flatten, operands) :=
  Options.read_encode (fun _ hmem => h.fits hgroups hmem) hoperands

theorem Grouped.valuesOf_eq_nil (h : Grouped groups segments) (flag : String)
    (hflag : flag ∉ flagsOf groups) : valuesOf flag segments.flatten = [] := by
  rw [valuesOf, List.filterMap_eq_nil_iff]
  intro occurrence hmem
  apply if_neg
  rintro rfl
  exact hflag (h.flag_mem hmem)

/-- Segments over disjoint groups of flags are determined by their concatenation. -/
theorem Grouped.flatten_inj {first second : List (List Occurrence)}
    (hfirst : Grouped groups first) (hsecond : Grouped groups second)
    (hgroups : (flagsOf groups).Nodup) (h : first.flatten = second.flatten) : first = second := by
  induction hfirst generalizing second with
  | nil =>
      cases hsecond
      rfl
  | @cons group segment groups segments hsegment hsegments ih =>
      cases hsecond with
      | cons hother hothers =>
          rw [flagsOf, List.flatMap_cons, List.nodup_append] at hgroups
          obtain ⟨-, hrest, hdisjoint⟩ := hgroups
          have hout {rest : List (List Occurrence)} (hgrouped : Grouped groups rest) :
              ∀ occurrence ∈ rest.flatten, occurrence.flag ∉ group.flags :=
            fun occurrence hmem hflag => hdisjoint _ hflag _ (hgrouped.flag_mem hmem) rfl
          obtain ⟨hhead, htail⟩ := append_inj_of_forall (fun o ho => (hsegment o ho).1)
            (fun o ho => (hother o ho).1) (hout hsegments) (hout hothers) h
          rw [hhead, ih hothers hrest htail]

end Segments

end Options
