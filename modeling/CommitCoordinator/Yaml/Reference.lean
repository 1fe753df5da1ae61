import CommitCoordinator.Collection.Sequenced
import CommitCoordinator.Data.Value
import CommitCoordinator.Yaml.Node

/-!
# References between YAML nodes

An alias refers to the node with its anchor. An anchor gets a number when its node begins: the
number of different anchors before it. An alias takes the number that its name has at that place
and means the last node that got this number. Unfolding puts the nodes in place of the aliases;
it is limited in depth and in the number of aliases, so that references in a circle end as
broken values.
-/

namespace CommitCoordinator.Yaml

open Data

/-- The anchors of a document. -/
structure Anchors where
  /-- The present number of each name. -/
  numbers : SequencedMap String Nat
  /-- The numbers in the order in which nodes got them. -/
  given : List Nat
  /-- Complete nodes under their places in that order. -/
  nodes : List (Nat × Node Nat)

namespace Anchors

def empty : Anchors :=
  ⟨.empty, [], []⟩

/-- Gives a number to the node of an anchor that begins here. -/
def begin (name : String) : StateM Anchors Unit :=
  modify fun anchors ↦
    let number := anchors.numbers.entries.length
    { anchors with
      numbers := anchors.numbers.insert name number
      given := anchors.given ++ [number] }

/-- The node that a number means. -/
def node? (anchors : Anchors) (number : Nat) : Option (Node Nat) := do
  let places := anchors.given.zipIdx.filter fun entry ↦ entry.1 = number
  let place ← places.getLast?
  (anchors.nodes.find? fun entry ↦ entry.1 = place.2).map Prod.snd

/-- Keeps the node that an anchor stands at. -/
def keep (properties : Properties) (content : StateM Anchors (Node Nat)) :
    StateM Anchors (Node Nat) := do
  match properties.anchor with
  | none => content
  | some name =>
    let place := (← get).given.length
    begin name
    let node ← content
    modify fun anchors ↦ { anchors with nodes := (place, node) :: anchors.nodes }
    return node

end Anchors

mutual

/-- Replaces the names in aliases by numbers. An unknown name breaks the text off. -/
def number : Node String → StateM Anchors (Node Nat)
  | .scalar properties text form =>
    Anchors.keep properties (return .scalar properties text form)
  | .sequence properties items =>
    Anchors.keep properties do return .sequence properties (← numberItems items)
  | .mapping properties members =>
    Anchors.keep properties do return .mapping properties (← numberMembers members)
  | .alias name => do
    match (← get).numbers.find? name with
    | some number => return .alias number
    | none => return .broken
  | .broken => return .broken

def numberItems : List (Node String) → StateM Anchors (List (Node Nat))
  | [] => return []
  | item :: rest => do return (← number item) :: (← numberItems rest)

def numberMembers : List (Node String × Node String) → StateM Anchors (List (Node Nat × Node Nat))
  | [] => return []
  | (key, value) :: rest => do
    let key ← number key
    let value ← number value
    return (key, value) :: (← numberMembers rest)

end

mutual

/-- The number of scalars, aliases and brackets. -/
def Node.weight {α : Type} : Node α → Nat
  | .sequence _ items => itemsWeight items + 2
  | .mapping _ members => membersWeight members + 2
  | .broken => 0
  | _ => 1

def itemsWeight {α : Type} : List (Node α) → Nat
  | [] => 0
  | item :: rest => item.weight + itemsWeight rest

def membersWeight {α : Type} : List (Node α × Node α) → Nat
  | [] => 0
  | (key, value) :: rest => key.weight + value.weight + membersWeight rest

end

/-! ## Values -/

/-- The form of a scalar as far as its kind depends on it. -/
def ScalarForm.style : ScalarForm → ScalarStyle
  | .plain => .plain
  | .literal => .literal
  | _ => .quoted

/-- The kind that a tag asserts. -/
def kindOf (tag : String) : KindTag :=
  if tag = "tag:yaml.org,2002:bool" then .bool
  else if tag = "tag:yaml.org,2002:int" then .int
  else if tag = "tag:yaml.org,2002:float" then .float
  else if tag = "tag:yaml.org,2002:null" then .null
  else .other

/-- Whether a tag asks for an interpretation of its own. -/
def isLocalTag (tag : Option String) : Bool :=
  tag.any fun tag ↦ tag.toList.head? = some '!'

def tagged (tag : Option String) (value : Value) : Value :=
  if isLocalTag tag then .tagged value else value

def scalarValue (properties : Properties) (text : String) (form : ScalarForm) : Value :=
  tagged properties.tag (.loose text form.style (properties.tag.map kindOf))

/-- Sequences and mappings may be nested this deep. -/
def maxDepth : Nat := 128

/-- The number of aliases that may be followed for each part of a document. -/
def aliasFactor : Nat := 100

/-- A name that is only referred to has no place of its own in messages. -/
def keyValue (key : Node Nat) (value : Value) : Value :=
  match key, value with
  | .alias _, .loose text _ _ => .string text
  | _, value => value

/-- The node that a node stands for; the state counts the aliases that may still be followed. -/
def follow (anchors : Anchors) : Node Nat → StateM Nat (Node Nat)
  | .alias number => do
    match ← get with
    | 0 => return .broken
    | left + 1 =>
      set left
      return (anchors.node? number).getD .broken
  | node => return node

/-- The value of a node above a number of levels. -/
def unfold (anchors : Anchors) : Nat → Node Nat → StateM Nat Value
  | 0, _ => return .broken
  | levels + 1, node => do
    match ← follow anchors node with
    | .scalar properties text form => return scalarValue properties text form
    | .sequence properties items =>
      if levels = 0 then return .broken
      else return tagged properties.tag (.list .sequence (← items.mapM (unfold anchors levels)))
    | .mapping properties members =>
      if levels = 0 then return .broken
      else
        let members ← members.mapM fun (key, value) ↦ do
          let name ← unfold anchors levels key
          return (keyValue key name, ← unfold anchors levels value)
        return tagged properties.tag (.map members)
    | .alias _ => return .broken
    | .broken => return .broken

/-- The root without the values of names that nobody asks for; where such a value breaks off, it
still does. -/
def restrict (isWanted : String → Bool) : Node Nat → Node Nat
  | .mapping properties members =>
    .mapping properties <| members.map fun (key, value) ↦
      match key with
      | .scalar _ name _ =>
        if isWanted name then (key, value)
        else (key, if value.isIntact then .omitted else .broken)
      | _ => (key, value)
  | node => node

/-- The value of a root. -/
def valueOf (isWanted : String → Bool) (root : Node String) : Value :=
  let (node, anchors) := (number root).run .empty
  ((unfold anchors (maxDepth + 1) (restrict isWanted node)).run (aliasFactor * root.weight)).1

end CommitCoordinator.Yaml
