import CommitCoordinator.Proofs.Storage.Directory

/-!
# Where walks halt

Every walk comes to a stop from which it cannot move on: no part is left, or the next one is too
long, names nothing or a file, or is a link that cannot be followed. What a path leads to can be
read off this stop, and so can what every longer path leads to.
-/

namespace CommitCoordinator.Storage

namespace FileTree

/-- Whether a walk cannot move on from a stop. -/
inductive Halts (tree : FileTree) : Stop → Prop where
  | arrived {links : Nat} {here : Route} : Halts tree ⟨links, here, []⟩
  | tooLong {links : Nat} {here : Route} {part : String} {rest : List String}
      (hidle : ¬(part = "" ∨ part = ".")) (hup : part ≠ "..")
      (hlength : maxPartLength < part.utf8ByteSize) : Halts tree ⟨links, here, part :: rest⟩
  | nothing {links : Nat} {here : Route} {part : String} {rest : List String} (hname : IsName part)
      (hnode : tree.node? (here ++ [part]) = none) : Halts tree ⟨links, here, part :: rest⟩
  | file {links : Nat} {here : Route} {part : String} {rest : List String} {content : Content}
      (hname : IsName part) (hnode : tree.node? (here ++ [part]) = some (.file content)) :
      Halts tree ⟨links, here, part :: rest⟩
  /-- No more links may be passed. -/
  | spent {here : Route} {part : String} {rest : List String} {target : String}
      (hname : IsName part) (hnode : tree.node? (here ++ [part]) = some (.link target)) :
      Halts tree ⟨0, here, part :: rest⟩
  /-- The link has no target. -/
  | blank {links : Nat} {here : Route} {part : String} {rest : List String} {target : String}
      (hname : IsName part) (hnode : tree.node? (here ++ [part]) = some (.link target))
      (htarget : target.isEmpty) : Halts tree ⟨links + 1, here, part :: rest⟩

variable {tree changed : FileTree} {followLast : Bool} {links : Nat} {here home : Route}
  {part : String} {rest front more : List String} {stop next : Stop}

/-- Every walk halts. -/
theorem exists_halts (tree : FileTree) (links : Nat) (here : Route) (parts : List String) :
    ∃ next, tree.Passes ⟨links, here, parts⟩ next ∧ tree.Halts next := by
  fun_induction FileTree.walk tree true links here parts with
  | case1 links here => exact ⟨_, .refl, .arrived⟩
  | case2 links here part rest hidle ih =>
    obtain ⟨next, hway, hhalts⟩ := ih
    exact ⟨next, .head (.idle hidle) hway, hhalts⟩
  | case3 links here rest _ ih =>
    obtain ⟨next, hway, hhalts⟩ := ih
    exact ⟨next, .head .up hway, hhalts⟩
  | case4 links here part rest hidle hup hlength => exact ⟨_, .refl, .tooLong hidle hup hlength⟩
  | case5 links here part rest hidle hup hlength _ hnode =>
    exact ⟨_, .refl, .nothing ⟨hidle, hup, Nat.not_lt.1 hlength⟩ hnode⟩
  | case6 links here part rest hidle hup hlength _ hnode =>
    exact ⟨_, .refl, .nothing ⟨hidle, hup, Nat.not_lt.1 hlength⟩ hnode⟩
  | case7 links here part rest hidle hup hlength _ hnode ih =>
    obtain ⟨next, hway, hhalts⟩ := ih
    exact ⟨next, .head (.down ⟨hidle, hup, Nat.not_lt.1 hlength⟩ hnode) hway, hhalts⟩
  | case8 links here part rest hidle hup hlength _ content hnode =>
    exact ⟨_, .refl, .file ⟨hidle, hup, Nat.not_lt.1 hlength⟩ hnode⟩
  | case9 links here part rest hidle hup hlength _ content hnode =>
    exact ⟨_, .refl, .file ⟨hidle, hup, Nat.not_lt.1 hlength⟩ hnode⟩
  | case10 links here part rest _ _ _ _ target _ hlast => simp at hlast
  | case11 here part rest hidle hup hlength _ target hnode =>
    exact ⟨_, .refl, .spent ⟨hidle, hup, Nat.not_lt.1 hlength⟩ hnode⟩
  | case12 here part rest hidle hup hlength _ target hnode _ links htarget =>
    exact ⟨_, .refl, .blank ⟨hidle, hup, Nat.not_lt.1 hlength⟩ hnode htarget⟩
  | case13 here part rest hidle hup hlength _ target hnode _ links htarget ih =>
    obtain ⟨next, hway, hhalts⟩ := ih
    exact ⟨next, .head (.follow ⟨hidle, hup, Nat.not_lt.1 hlength⟩ hnode htarget) hway, hhalts⟩

/-! ## What a walk comes to where it halts -/

theorem walk_tooLong (hidle : ¬(part = "" ∨ part = ".")) (hup : part ≠ "..")
    (hlength : maxPartLength < part.utf8ByteSize) :
    tree.walk followLast links here (part :: rest) = .error .nameTooLong := by
  rw [walk, if_neg hidle, if_neg hup, if_pos hlength]

namespace IsName

theorem walk_onto_file (h : IsName part) {content : Content}
    (hnode : tree.node? (here ++ [part]) = some (.file content)) :
    tree.walk followLast links here (part :: rest) =
      if rest.isEmpty then .ok (.found (here ++ [part]) (.file content))
      else .error .notADirectory := by
  obtain ⟨hidle, hup, hlength⟩ := h
  rw [walk, if_neg hidle, if_neg hup, if_neg (Nat.not_lt.2 hlength)]
  simp only [hnode]

/-- A link that cannot be followed is found if the walk is to stop at it. -/
theorem walk_onto_link (h : IsName part) {target : String}
    (hnode : tree.node? (here ++ [part]) = some (.link target))
    (hstuck : links = 0 ∨ target.isEmpty) :
    tree.walk followLast links here (part :: rest) =
      if rest.isEmpty && !followLast then .ok (.found (here ++ [part]) (.link target))
      else .error (if links = 0 then .tooManyLinks else .notFound) := by
  obtain ⟨hidle, hup, hlength⟩ := h
  rw [walk, if_neg hidle, if_neg hup, if_neg (Nat.not_lt.2 hlength)]
  simp only [hnode]
  cases links with
  | zero => rfl
  | succ links => simp only [hstuck.resolve_left (Nat.succ_ne_zero links), if_true]; rfl

end IsName

/-- Whether parts name something that an existing directory would have to hold. -/
def Deeper (more : List String) : Prop :=
  ∃ part ∈ more, part ≠ ""

theorem Deeper.ne_nil (h : Deeper more) : more ≠ [] := by
  rintro rfl
  obtain ⟨part, hpart, -⟩ := h
  cases hpart

theorem Deeper.append (h : Deeper more) (front : List String) : Deeper (front ++ more) :=
  h.imp fun _ ⟨hpart, hname⟩ ↦ ⟨List.mem_append_right front hpart, hname⟩

theorem Deeper.not_all (h : Deeper more) : ¬more.all (· = "") := by
  obtain ⟨part, hpart, hname⟩ := h
  intro hall
  exact hname (of_decide_eq_true (List.all_eq_true.1 hall part hpart))

/-- Where a walk halts before its end, it fails for the same reason however it goes on, unless it
found something where it was to end. -/
theorem Halts.walk_more (h : tree.Halts stop) (hparts : stop.parts ≠ []) (hmore : Deeper more) :
    ∃ cause, (∀ followLast, tree.walk followLast stop.links stop.here (stop.parts ++ more) =
        .error cause) ∧
      (cause = .notFound ∨ ∀ followLast,
        (∃ route node, tree.walk followLast stop.links stop.here stop.parts =
          .ok (.found route node)) ∨
        tree.walk followLast stop.links stop.here stop.parts = .error cause) := by
  have hrest (rest : List String) : (rest ++ more).isEmpty = false := by
    rw [List.isEmpty_eq_false_iff]
    exact (hmore.append rest).ne_nil
  cases h with
  | arrived => exact absurd rfl hparts
  | tooLong hidle hup hlength =>
    exact ⟨_, fun _ ↦ walk_tooLong hidle hup hlength,
      .inr fun _ ↦ .inr (walk_tooLong hidle hup hlength)⟩
  | nothing hname hnode =>
    refine ⟨.notFound, fun _ ↦ ?_, .inl rfl⟩
    exact (hname.walk_nothing hnode).trans (if_neg (hmore.append _).not_all)
  | @file links here part rest content hname hnode =>
    refine ⟨.notADirectory, fun _ ↦ ?_, .inr fun _ ↦ ?_⟩
    · exact (hname.walk_onto_file hnode).trans (if_neg (by simp [hrest]))
    · rw [hname.walk_onto_file hnode]
      split
      · exact .inl ⟨_, _, rfl⟩
      · exact .inr rfl
  | @spent here part rest target hname hnode =>
    refine ⟨.tooManyLinks, fun _ ↦ ?_, .inr fun _ ↦ ?_⟩
    · exact (hname.walk_onto_link hnode (.inl rfl)).trans (if_neg (by simp [hrest]))
    · rw [hname.walk_onto_link hnode (.inl rfl)]
      split
      · exact .inl ⟨_, _, rfl⟩
      · exact .inr rfl
  | blank hname hnode htarget =>
    refine ⟨.notFound, fun _ ↦ ?_, .inl rfl⟩
    exact (hname.walk_onto_link hnode (.inr htarget)).trans (if_neg (by simp [hrest]))

/-- A walk that arrives in a directory finds one, if only a link to it. -/
theorem Passes.walk_arrived (h : tree.Passes ⟨links, here, front⟩ next) (hparts : next.parts = [])
    (followLast : Bool) :
    ∃ route node, tree.walk followLast links here front = .ok (.found route node) := by
  have hway : tree.Passes ⟨links, here, front ++ []⟩ next := by rwa [List.append_nil]
  rcases hway.walk_front followLast with hfound | ⟨left, hleft, hwalk⟩
  · exact hfound
  · rw [hparts] at hleft
    obtain ⟨rfl, -⟩ := List.append_eq_nil_iff.1 hleft.symm
    exact ⟨next.here, .dir, hwalk.trans (by rw [walk])⟩

/-- A walk arrives in a directory, or everything deeper fails for the same reason. -/
theorem walk_append (tree : FileTree) (links : Nat) (here : Route) (front : List String)
    (hmore : Deeper more) :
    (∃ left home, tree.Passes ⟨links, here, front⟩ ⟨left, home, []⟩) ∨
      ∃ cause, (∀ followLast, tree.walk followLast links here (front ++ more) = .error cause) ∧
        (cause = .notFound ∨ ∀ followLast,
          (∃ route node, tree.walk followLast links here front = .ok (.found route node)) ∨
          tree.walk followLast links here front = .error cause) := by
  obtain ⟨next, hway, hhalts⟩ := tree.exists_halts links here front
  by_cases hparts : next.parts = []
  · obtain ⟨left, home, parts⟩ := next
    obtain rfl : parts = [] := hparts
    exact .inl ⟨left, home, hway⟩
  · obtain ⟨cause, hlonger, hcause⟩ := hhalts.walk_more hparts hmore
    refine .inr ⟨cause, fun followLast ↦ ?_, hcause.imp_right fun hcause followLast ↦ ?_⟩
    · exact (hway.walk_eq followLast more (.inr hmore.ne_nil)).trans (hlonger followLast)
    · have hway : tree.Passes ⟨links, here, front ++ []⟩ next := by rwa [List.append_nil]
      rcases hway.walk_front followLast with hfound | ⟨left, hleft, hwalk⟩
      · exact .inl hfound
      · rw [List.append_nil] at hleft
        rw [hwalk, ← hleft]
        exact hcause followLast

/-- A walk that halts comes to the same in a tree where the same has the name it halts at. -/
theorem Halts.walk_congr (h : tree.Halts stop)
    (hsame : ∀ part rest, stop.parts = part :: rest → IsName part →
      changed.node? (stop.here ++ [part]) = tree.node? (stop.here ++ [part]))
    (followLast : Bool) :
    changed.walk followLast stop.links stop.here stop.parts =
      tree.walk followLast stop.links stop.here stop.parts := by
  cases h with
  | arrived => rw [walk, walk]
  | tooLong hidle hup hlength =>
    rw [walk_tooLong hidle hup hlength, walk_tooLong hidle hup hlength]
  | nothing hname hnode =>
    rw [hname.walk_nothing hnode, hname.walk_nothing ((hsame _ _ rfl hname).trans hnode)]
  | file hname hnode =>
    rw [hname.walk_onto_file hnode, hname.walk_onto_file ((hsame _ _ rfl hname).trans hnode)]
  | spent hname hnode =>
    rw [hname.walk_onto_link hnode (.inl rfl),
      hname.walk_onto_link ((hsame _ _ rfl hname).trans hnode) (.inl rfl)]
  | blank hname hnode htarget =>
    rw [hname.walk_onto_link hnode (.inr htarget),
      hname.walk_onto_link ((hsame _ _ rfl hname).trans hnode) (.inr htarget)]

/-! ## Walks that succeed -/

/-- Whether a walk ends at a stop with a place. -/
inductive Lands (tree : FileTree) (followLast : Bool) : Stop → Place → Prop where
  | dir {links : Nat} {here : Route} : Lands tree followLast ⟨links, here, []⟩ (.found here .dir)
  | vacant {links : Nat} {here : Route} {part : String} {rest : List String} (hname : IsName part)
      (hnode : tree.node? (here ++ [part]) = none) (hrest : rest.all (· = "")) :
      Lands tree followLast ⟨links, here, part :: rest⟩
        (.vacant (here ++ [part]) (!rest.isEmpty))
  | file {links : Nat} {here : Route} {part : String} {content : Content} (hname : IsName part)
      (hnode : tree.node? (here ++ [part]) = some (.file content)) :
      Lands tree followLast ⟨links, here, [part]⟩ (.found (here ++ [part]) (.file content))
  | link {links : Nat} {here : Route} {part target : String} (hname : IsName part)
      (hnode : tree.node? (here ++ [part]) = some (.link target)) (hfollow : followLast = false) :
      Lands tree followLast ⟨links, here, [part]⟩ (.found (here ++ [part]) (.link target))

theorem exists_lands {place : Place} (h : tree.walk followLast links here front = .ok place) :
    ∃ next, tree.Passes ⟨links, here, front⟩ next ∧ tree.Lands followLast next place := by
  fun_induction FileTree.walk tree followLast links here front with
  | case1 links here =>
    cases h
    exact ⟨_, .refl, .dir⟩
  | case2 links here part rest hidle ih =>
    obtain ⟨next, hway, hlands⟩ := ih h
    exact ⟨next, .head (.idle hidle) hway, hlands⟩
  | case3 links here rest _ ih =>
    obtain ⟨next, hway, hlands⟩ := ih h
    exact ⟨next, .head .up hway, hlands⟩
  | case5 links here part rest hidle hup hlength _ hnode hrest =>
    cases h
    exact ⟨_, .refl, .vacant ⟨hidle, hup, Nat.not_lt.1 hlength⟩ hnode hrest⟩
  | case7 links here part rest hidle hup hlength _ hnode ih =>
    obtain ⟨next, hway, hlands⟩ := ih h
    exact ⟨next, .head (.down ⟨hidle, hup, Nat.not_lt.1 hlength⟩ hnode) hway, hlands⟩
  | case8 links here part rest hidle hup hlength _ content hnode hrest =>
    cases h
    obtain rfl := List.isEmpty_iff.1 hrest
    exact ⟨_, .refl, .file ⟨hidle, hup, Nat.not_lt.1 hlength⟩ hnode⟩
  | case10 links here part rest hidle hup hlength _ target hnode hlast =>
    cases h
    obtain ⟨hrest, hfollow⟩ := Bool.and_eq_true_iff.1 hlast
    obtain rfl := List.isEmpty_iff.1 hrest
    refine ⟨_, .refl, .link ⟨hidle, hup, Nat.not_lt.1 hlength⟩ hnode ?_⟩
    rwa [Bool.not_eq_true'] at hfollow
  | case13 here part rest hidle hup hlength _ target hnode _ links htarget ih =>
    obtain ⟨next, hway, hlands⟩ := ih h
    exact ⟨next, .head (.follow ⟨hidle, hup, Nat.not_lt.1 hlength⟩ hnode htarget) hway, hlands⟩
  | case4 => cases h
  | case6 => cases h
  | case9 => cases h
  | case11 => cases h
  | case12 => cases h

/-- A walk finds a directory only by arriving there. -/
theorem passes_of_walk (h : tree.walk followLast links here front = .ok (.found home .dir)) :
    ∃ left, tree.Passes ⟨links, here, front⟩ ⟨left, home, []⟩ := by
  obtain ⟨next, hway, hlands⟩ := exists_lands h
  cases hlands
  exact ⟨_, hway⟩

/-- A walk leads to the place of a file by halting at its name. -/
theorem passes_of_fileRoute {place : Place} {route : Route}
    (h : tree.walk followLast links here front = .ok place)
    (hplace : place.fileRoute? = some route) :
    ∃ left here' part, tree.Passes ⟨links, here, front⟩ ⟨left, here', [part]⟩ ∧ IsName part ∧
      route = here' ++ [part] ∧
      ∀ node, tree.node? route = some node → ∃ content, node = .file content := by
  obtain ⟨next, hway, hlands⟩ := exists_lands h
  cases hlands with
  | dir => cases hplace
  | @vacant left here' part rest hname hnode hrest =>
    cases rest with
    | nil =>
      cases hplace
      exact ⟨left, here', part, hway, hname, rfl, fun node hsome ↦ nomatch hnode.symm.trans hsome⟩
    | cons => cases hplace
  | @file left here' part content hname hnode =>
    cases hplace
    refine ⟨left, here', part, hway, hname, rfl, fun node hsome ↦ ⟨content, ?_⟩⟩
    exact Option.some.inj (hsome.symm.trans hnode)
  | link => cases hplace

end FileTree

end CommitCoordinator.Storage
