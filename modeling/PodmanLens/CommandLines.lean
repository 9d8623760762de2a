import PodmanLens.CreateCommand

/-!
# Command lines

What the scanner parses is a command line: a program, an action, options of the table, an operand
that is the image, and words that are not read. The reading keeps the options in their order, so
the mounts that it records are those of the options before the image.
-/

namespace PodmanLens
open Text Json

/-- The end of the options: a terminator, or a word that is no option. -/
def EndsOptions (front : List String) (image : String) : Prop :=
  front = ["--"] ∨ front = [] ∧ image ≠ "--" ∧
    ("-".toList.isPrefixOf image.toList = false ∨ image = "-")

/-- The words are options of the table in this order, an image and words behind it. -/
structure OptionLine (words : List String) (flags : List CreateFlag) (image : String) : Prop where
  spelled : ∃ front trailing,
    words = flags.flatMap CreateFlag.words ++ (front ++ image :: trailing) ∧
      EndsOptions front image

section Scanning
variable {relabels : ParsedCreateMountRelabels} {command : ParsedCreateCommand}

theorem OptionLine.cons {words : List String} {flags : List CreateFlag} {image : String}
    (flag : CreateFlag) (h : OptionLine words flags image) :
    OptionLine (flag.words ++ words) (flag :: flags) image := by
  obtain ⟨front, trailing, rfl, hend⟩ := h.spelled
  exact ⟨⟨front, trailing, by rw [List.flatMap_cons, List.append_assoc], hend⟩⟩

end Scanning

section Lines

variable {value : Option Value} {command : ParsedCreateCommand}

end Lines

end PodmanLens
