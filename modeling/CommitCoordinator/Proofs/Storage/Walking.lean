import CommitCoordinator.Proofs.Storage.LinkFree
import Mathlib.Logic.Relation

/-!
# Walks in trees with links

A walk moves on part by part: over a part that names nothing, up to the directory above, down into
a directory, or along a link. As long as no directory and no link is gone, the same moves lead to
the same place.
-/

namespace CommitCoordinator.Storage

namespace FileTree

/-- Where a walk is: the number of links that it may still pass, the directory it has come to, and
the parts that are left. -/
structure Stop where
  links : Nat
  here : Route
  parts : List String

/-- Whether a part of a path is a name that something in a directory can have. -/
def IsName (part : String) : Prop :=
  ¬(part = "" ∨ part = ".") ∧ part ≠ ".." ∧ part.utf8ByteSize ≤ maxPartLength

instance (part : String) : Decidable (IsName part) :=
  inferInstanceAs (Decidable (_ ∧ _ ∧ _))

/-- One move of a walk. -/
inductive Moves (tree : FileTree) : Stop → Stop → Prop where
  | idle {links : Nat} {here : Route} {part : String} {rest : List String}
      (hidle : part = "" ∨ part = ".") : Moves tree ⟨links, here, part :: rest⟩ ⟨links, here, rest⟩
  | up {links : Nat} {here : Route} {rest : List String} :
      Moves tree ⟨links, here, ".." :: rest⟩ ⟨links, here.dropLast, rest⟩
  | down {links : Nat} {here : Route} {part : String} {rest : List String} (hname : IsName part)
      (hnode : tree.node? (here ++ [part]) = some .dir) :
      Moves tree ⟨links, here, part :: rest⟩ ⟨links, here ++ [part], rest⟩
  | follow {links : Nat} {here : Route} {part : String} {rest : List String} {target : String}
      (hname : IsName part) (hnode : tree.node? (here ++ [part]) = some (.link target))
      (htarget : ¬target.isEmpty) :
      Moves tree ⟨links + 1, here, part :: rest⟩
        ⟨links, linkStart here target, pathParts target ++ rest⟩

/-- Whether a walk comes from one stop to another. -/
abbrev Passes (tree : FileTree) : Stop → Stop → Prop :=
  Relation.ReflTransGen tree.Moves

variable {tree changed : FileTree} {followLast : Bool} {links : Nat} {here : Route}
  {part : String} {rest more : List String} {stop next : Stop}

/-! ## Single moves -/

namespace IsName

theorem walk_nothing (h : IsName part) (hnode : tree.node? (here ++ [part]) = none) :
    tree.walk followLast links here (part :: rest) =
      if rest.all (· = "") then .ok (.vacant (here ++ [part]) (!rest.isEmpty))
      else .error .notFound := by
  obtain ⟨hidle, hup, hlength⟩ := h
  rw [walk, if_neg hidle, if_neg hup, if_neg (Nat.not_lt.2 hlength)]
  simp only [hnode]

theorem walk_dir (h : IsName part) (hnode : tree.node? (here ++ [part]) = some .dir) :
    tree.walk followLast links here (part :: rest) =
      tree.walk followLast links (here ++ [part]) rest := by
  obtain ⟨hidle, hup, hlength⟩ := h
  rw [walk, if_neg hidle, if_neg hup, if_neg (Nat.not_lt.2 hlength)]
  simp only [hnode]

theorem walk_file (h : IsName part) {content : Content}
    (hnode : tree.node? (here ++ [part]) = some (.file content)) :
    tree.walk followLast links here [part] =
      .ok (.found (here ++ [part]) (.file content)) := by
  obtain ⟨hidle, hup, hlength⟩ := h
  rw [walk, if_neg hidle, if_neg hup, if_neg (Nat.not_lt.2 hlength)]
  simp only [hnode, List.isEmpty_nil, if_true]

theorem walk_link (h : IsName part) {target : String}
    (hnode : tree.node? (here ++ [part]) = some (.link target)) (htarget : ¬target.isEmpty)
    (hrest : followLast = true ∨ rest ≠ []) :
    tree.walk followLast (links + 1) here (part :: rest) =
      tree.walk followLast links (linkStart here target) (pathParts target ++ rest) := by
  obtain ⟨hidle, hup, hlength⟩ := h
  have hlast : ¬(rest.isEmpty && !followLast) := by
    rcases hrest with hfollow | hrest
    · simp [hfollow]
    · simp [hrest]
  rw [walk, if_neg hidle, if_neg hup, if_neg (Nat.not_lt.2 hlength)]
  simp only [hnode, if_neg hlast, if_neg htarget]

theorem walk_last_link (h : IsName part) {target : String} (hfollow : followLast = false)
    (hnode : tree.node? (here ++ [part]) = some (.link target)) :
    tree.walk followLast links here [part] = .ok (.found (here ++ [part]) (.link target)) := by
  obtain ⟨hidle, hup, hlength⟩ := h
  rw [walk, if_neg hidle, if_neg hup, if_neg (Nat.not_lt.2 hlength)]
  simp [hnode, hfollow]

end IsName

/-- A walk leads to the same place after a move, if it is not to stop at a link. -/
theorem Moves.walk_eq (h : tree.Moves stop next) (followLast : Bool) (more : List String)
    (hmore : followLast = true ∨ more ≠ []) :
    tree.walk followLast stop.links stop.here (stop.parts ++ more) =
      tree.walk followLast next.links next.here (next.parts ++ more) := by
  cases h with
  | idle hidle => rw [List.cons_append, walk, if_pos hidle]
  | up => rw [List.cons_append, walk, if_neg (by decide), if_pos rfl]
  | down hname hnode => exact hname.walk_dir hnode
  | follow hname hnode htarget =>
    rw [List.append_assoc]
    apply hname.walk_link hnode htarget
    apply hmore.imp_right
    intro hmore hnil
    exact hmore (List.append_eq_nil_iff.1 hnil).2

/-- A move does not change where a walk leads, unless the walk is to stop at the link. -/
theorem Moves.walk_eq_or (h : tree.Moves stop next) (followLast : Bool) :
    (∃ route node, tree.walk followLast stop.links stop.here stop.parts =
        .ok (.found route node)) ∨
      tree.walk followLast stop.links stop.here stop.parts =
        tree.walk followLast next.links next.here next.parts := by
  by_cases hfollow : followLast = true
  · have hwalk := h.walk_eq followLast [] (.inl hfollow)
    rw [List.append_nil, List.append_nil] at hwalk
    exact .inr hwalk
  · cases h with
    | idle hidle => exact .inr (by rw [walk, if_pos hidle])
    | up => exact .inr (by rw [walk, if_neg (by decide), if_pos rfl])
    | down hname hnode => exact .inr (hname.walk_dir hnode)
    | @follow _ here part rest target hname hnode htarget =>
      by_cases hrest : rest = []
      · subst hrest
        rw [Bool.not_eq_true] at hfollow
        exact .inl ⟨_, _, hname.walk_last_link hfollow hnode⟩
      · exact .inr (hname.walk_link hnode htarget (.inr hrest))

/-- Directories and links that remain allow the same moves. -/
theorem Moves.mono
    (hkept : ∀ route node, tree.node? route = some node → (∀ content, node ≠ .file content) →
      changed.node? route = some node)
    (h : tree.Moves stop next) : changed.Moves stop next := by
  cases h with
  | idle hidle => exact .idle hidle
  | up => exact .up
  | down hname hnode => exact .down hname (hkept _ _ hnode nofun)
  | follow hname hnode htarget => exact .follow hname (hkept _ _ hnode nofun) htarget

/-- A move over the first parts of a path is one along each path that begins with them. -/
theorem Moves.of_append {front : List String} (h : tree.Moves ⟨links, here, front ++ more⟩ next)
    (hfront : front ≠ []) :
    ∃ left, next.parts = left ++ more ∧
      tree.Moves ⟨links, here, front⟩ ⟨next.links, next.here, left⟩ := by
  obtain ⟨part, rest, rfl⟩ := List.exists_cons_of_ne_nil hfront
  rw [List.cons_append] at h
  cases h with
  | idle hidle => exact ⟨rest, rfl, .idle hidle⟩
  | up => exact ⟨rest, rfl, .up⟩
  | down hname hnode => exact ⟨rest, rfl, .down hname hnode⟩
  | @follow _ _ _ _ target hname hnode htarget =>
    exact ⟨pathParts target ++ rest, (List.append_assoc ..).symm, .follow hname hnode htarget⟩

/-! ## Many moves -/

namespace Passes

theorem walk_eq (h : tree.Passes stop next) (followLast : Bool) (more : List String)
    (hmore : followLast = true ∨ more ≠ []) :
    tree.walk followLast stop.links stop.here (stop.parts ++ more) =
      tree.walk followLast next.links next.here (next.parts ++ more) := by
  induction h with
  | refl => rfl
  | tail _ hmove ih => exact ih.trans (hmove.walk_eq followLast more hmore)

theorem mono
    (hkept : ∀ route node, tree.node? route = some node → (∀ content, node ≠ .file content) →
      changed.node? route = some node)
    (h : tree.Passes stop next) : changed.Passes stop next :=
  Relation.ReflTransGen.mono (fun _ _ (hmove : tree.Moves _ _) ↦ hmove.mono hkept) _ _ h

/-- A walk along the first parts of a path finds something there, or it comes by where the walk
along the whole path does. -/
theorem walk_front {front : List String} (h : tree.Passes ⟨links, here, front ++ more⟩ next)
    (followLast : Bool) :
    (∃ route node, tree.walk followLast links here front = .ok (.found route node)) ∨
      ∃ left, next.parts = left ++ more ∧ tree.walk followLast links here front =
        tree.walk followLast next.links next.here left := by
  generalize hstop : (⟨links, here, front ++ more⟩ : Stop) = stop at h
  induction h using Relation.ReflTransGen.head_induction_on generalizing links here front with
  | refl =>
    subst hstop
    exact .inr ⟨front, rfl, rfl⟩
  | @head stop between hmove _ ih =>
    subst hstop
    by_cases hfront : front = []
    · subst hfront
      exact .inl ⟨here, .dir, by rw [walk]⟩
    · obtain ⟨left, hleft, hmove⟩ := hmove.of_append hfront
      rcases hmove.walk_eq_or followLast with hfound | hwalk
      · exact .inl hfound
      · rw [hwalk]
        apply ih
        rw [← hleft]

end Passes

/-! ## Empty parts -/

theorem walk_cons_congr {rest' : List String}
    (hall : rest.all (· = "") = rest'.all (· = "")) (hempty : rest.isEmpty = rest'.isEmpty)
    (hrest : ∀ here, tree.walk followLast links here rest = tree.walk followLast links here rest')
    (hlink : ∀ fewer here target, fewer < links →
      tree.walk followLast fewer here (pathParts target ++ rest) =
        tree.walk followLast fewer here (pathParts target ++ rest')) :
    tree.walk followLast links here (part :: rest) =
      tree.walk followLast links here (part :: rest') := by
  rw [walk, walk.eq_def tree followLast links here (part :: rest')]
  simp only [hall, hempty, hrest]
  cases links with
  | zero => rfl
  | succ links => simp only [hlink links _ _ (Nat.lt_succ_self links)]

/-- An empty part in front of a name does not matter. -/
theorem walk_skip_empty {front : List String} {name : String} (hname : name ≠ "") :
    tree.walk followLast links here (front ++ ["", name]) =
      tree.walk followLast links here (front ++ [name]) := by
  -- A link is followed with fewer links left, every other part with fewer parts.
  induction links using Nat.strongRecOn generalizing here front with
  | _ links ih =>
    induction front generalizing here with
    | nil => rw [List.nil_append, List.nil_append, walk, if_pos (.inl rfl)]
    | cons part front ih' =>
      rw [List.cons_append, List.cons_append]
      apply walk_cons_congr
      · simp [hname]
      · cases front <;> rfl
      · intro here
        exact ih'
      · intro fewer here target hfewer
        rw [← List.append_assoc, ← List.append_assoc]
        exact ih fewer hfewer

end FileTree

end CommitCoordinator.Storage
