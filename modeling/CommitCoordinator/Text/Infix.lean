/-!
# Text inside text
-/

namespace CommitCoordinator.Text

/-- Whether characters occur next to each other in a text. -/
def occursIn (part : List Char) : List Char → Bool
  | [] => part.isEmpty
  | c :: rest => part.isPrefixOf (c :: rest) || occursIn part rest

def containsText (text part : String) : Bool :=
  occursIn part.toList text.toList

theorem occursIn_iff_infix {part cs : List Char} : occursIn part cs = true ↔ part <:+: cs := by
  induction cs with
  | nil => simp [occursIn, List.isEmpty_iff]
  | cons c rest ih => simp [occursIn, ih, List.infix_cons_iff, List.isPrefixOf_iff_prefix]

end CommitCoordinator.Text
