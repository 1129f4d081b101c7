import HarnessIndex.Proofs.Syntax.Items
import HarnessIndex.Proofs.Syntax.Position

/-!
# Where items can stand

Items stand in containers. The root of a file is one; a module that is reached opens its body as
another one, under its name, and any other node that marks an error and is reached opens itself,
without a name. A node is reached when it is a visible child of a container. The search for items of
one kind lists those that are reached, each position once, in pre-order.
-/

namespace HarnessIndex.Syntax

namespace Node

/-- The number of the first child that fills a field. -/
def fieldIndex (node : Node) (field : Field) : Nat :=
  node.allChildren.findIdx fun child => child.tree.field = some field

theorem field?_eq_getElem? (node : Node) (field : Field) :
    node.field? field = node.allChildren[node.fieldIndex field]? :=
  List.find?_eq_getElem?_findIdx

/-- The node at a position below a node. -/
def nodeAt? (node : Node) : Position → Option Node
  | [] => some node
  | index :: rest => node.allChildren[index]?.bind fun child => child.nodeAt? rest

theorem nodeAt?_append (node : Node) (position rest : Position) :
    node.nodeAt? (position ++ rest) =
      (node.nodeAt? position).bind fun inner => inner.nodeAt? rest := by
  induction position generalizing node with
  | nil => rfl
  | cons index position ih =>
      rw [List.cons_append, nodeAt?, nodeAt?, Option.bind_assoc]
      exact congrArg _ (funext ih)

end Node

namespace Item

/-- What a node that is reached under a module path opens, the steps to it and its own path: a
module opens its body, another node that marks an error opens itself. -/
inductive Opens (path : List Text) (member : Node) : Position → Node → List Text → Prop where
  | body {body : Node} : member.kind = .modItem → member.field? .body = some body →
      Opens path member [member.fieldIndex .body] body (path ++ [member.name?.getD "_"])
  | error : member.kind ≠ .modItem → member.isError = true → Opens path member [] member path

/-- The containers below a root that has a module path itself, with their positions and their
module paths. A visible child of a container leads to the container that it opens. -/
inductive IsContainer (root : Node) (rootPath : List Text) :
    Position → Node → List Text → Prop where
  | root : IsContainer root rootPath [] root rootPath
  | opened {position steps : Position} {container member inner : Node} {path innerPath : List Text}
      {index : Nat} : IsContainer root rootPath position container path →
      container.allChildren[index]? = some member → member.tree.isVisible = true →
      Opens path member steps inner innerPath →
      IsContainer root rootPath (position ++ index :: steps) inner innerPath

/-- The nodes that are reached from a root: the visible children of containers. -/
inductive IsReached (root : Node) (rootPath : List Text) :
    Position → Node → List Text → Prop where
  | child {position : Position} {container node : Node} {path : List Text} {index : Nat} :
      IsContainer root rootPath position container path →
      container.allChildren[index]? = some node → node.tree.isVisible = true →
      IsReached root rootPath (position ++ [index]) node path

variable {root container member node inner : Node} {position steps : Position} {index : Nat}
variable {rootPath path innerPath : List Text}

/-! ## The first step on the way to a node -/

theorem Opens.unique {steps' : Position} {inner' : Node} {innerPath' : List Text}
    (opens : Opens path member steps inner innerPath)
    (opens' : Opens path member steps' inner' innerPath') :
    steps = steps' ∧ inner = inner' ∧ innerPath = innerPath' := by
  cases opens with
  | body isModule filled =>
      cases opens' with
      | body _ filled' => exact ⟨rfl, Option.some.inj (filled.symm.trans filled'), rfl⟩
      | error other _ => exact absurd isModule other
  | error other _ =>
      cases opens' with
      | body isModule _ => exact absurd isModule other
      | error _ _ => exact ⟨rfl, rfl, rfl⟩

theorem Opens.size_le (opens : Opens path member steps inner innerPath) :
    inner.tree.size ≤ member.tree.size := by
  cases opens with
  | body _ filled => exact Nat.le_of_lt (Tree.size_lt_of_mem_children (Node.field?_mem filled).2)
  | error _ _ => exact Nat.le_refl _

theorem Opens.nodeAt? (opens : Opens path member steps inner innerPath) :
    member.nodeAt? steps = some inner := by
  cases opens with
  | body _ filled =>
      rw [Node.nodeAt?, ← Node.field?_eq_getElem?, filled]
      rfl
  | error _ _ => rfl

/-- A container stands at its position. -/
theorem IsContainer.nodeAt? (found : IsContainer root rootPath position container path) :
    root.nodeAt? position = some container := by
  induction found with
  | root => rfl
  | opened _ child _ opens ih =>
      rw [Node.nodeAt?_append, ih, Option.bind_some, Node.nodeAt?, child, Option.bind_some]
      exact opens.nodeAt?

theorem IsReached.nodeAt? (reached : IsReached root rootPath position node path) :
    root.nodeAt? position = some node := by
  obtain ⟨outer, child, -⟩ := reached
  rw [Node.nodeAt?_append, outer.nodeAt?, Option.bind_some, Node.nodeAt?, child]
  rfl

theorem IsContainer.trans {position' : Position}
    (outer : IsContainer root rootPath position inner innerPath)
    (found : IsContainer inner innerPath position' container path) :
    IsContainer root rootPath (position ++ position') container path := by
  induction found with
  | root => exact (List.append_nil position).symm ▸ outer
  | opened _ child visible opens ih =>
      rw [← List.append_assoc]
      exact .opened ih child visible opens

/-- A container is the root, or stands in one that a visible child of the root opens. -/
theorem IsContainer.cases_first (found : IsContainer root rootPath position container path) :
    (position = [] ∧ container = root ∧ path = rootPath) ∨
      ∃ index member steps inner innerPath rest, root.allChildren[index]? = some member ∧
        member.tree.isVisible = true ∧ Opens rootPath member steps inner innerPath ∧
        position = index :: (steps ++ rest) ∧ IsContainer inner innerPath rest container path := by
  induction found with
  | root => exact Or.inl ⟨rfl, rfl, rfl⟩
  | @opened _ steps _ _ inner _ innerPath index _ child visible opens ih =>
      rcases ih with ⟨rfl, rfl, rfl⟩ | ⟨first, outer, steps', inner', innerPath', rest, child',
        visible', opens', rfl, found⟩
      · exact Or.inr ⟨index, _, steps, inner, innerPath, [], child, visible, opens,
          by rw [List.append_nil, List.nil_append], .root⟩
      · refine Or.inr ⟨first, outer, steps', inner', innerPath', rest ++ index :: steps, child',
          visible', opens', ?_, .opened found child visible opens⟩
        rw [List.cons_append, List.append_assoc]

/-- What is reached in the container that a node opens. -/
def IsReachedInside (path : List Text) (member : Node) (position : Position) (node : Node)
    (nodePath : List Text) : Prop :=
  ∃ steps inner innerPath rest, Opens path member steps inner innerPath ∧
    position = steps ++ rest ∧ IsReached inner innerPath rest node nodePath

/-- What is reached from a child of a container: the child itself, and what is reached inside it. -/
def IsReachedFrom (path : List Text) (child : Node) (position : Position) (node : Node)
    (nodePath : List Text) : Prop :=
  child.tree.isVisible = true ∧
    (position = [] ∧ node = child ∧ nodePath = path ∨
      IsReachedInside path child position node nodePath)

/-- The first step on the way to what is reached leads to a child of the root. -/
theorem isReached_iff :
    IsReached root rootPath position node path ↔
      ∃ index child rest, root.allChildren[index]? = some child ∧ position = index :: rest ∧
        IsReachedFrom rootPath child rest node path := by
  constructor
  · rintro ⟨outer, child, visible⟩
    rcases outer.cases_first with ⟨rfl, rfl, rfl⟩ | ⟨first, member, steps, inner, innerPath, rest,
      child', visible', opens, rfl, found⟩
    · exact ⟨_, node, [], child, rfl, visible, Or.inl ⟨rfl, rfl, rfl⟩⟩
    · refine ⟨first, member, _, child', rfl, visible', Or.inr ?_⟩
      exact ⟨steps, inner, innerPath, _, opens, List.append_assoc .., .child found child visible⟩
  · rintro ⟨index, member, rest, child, rfl, visible, ⟨rfl, rfl, rfl⟩ | ⟨steps, inner, innerPath,
      rest', opens, rfl, ⟨found, child', visible'⟩⟩⟩
    · exact .child .root child visible
    · have outer : IsContainer root rootPath ([] ++ index :: steps) inner innerPath :=
        .opened .root child visible opens
      rw [← List.append_assoc, ← List.cons_append]
      exact .child (outer.trans found) child' visible'

theorem IsReached.ne_nil (reached : IsReached root rootPath position node path) :
    position ≠ [] := by
  obtain ⟨index, member, rest, -, rfl, -⟩ := isReached_iff.mp reached
  exact List.cons_ne_nil index rest

/-! ## What the search lists -/

variable {kind : Kind}

/-- The items that a child contributes: itself, and those inside it. -/
def listed (kind : Kind) (path : List Text) (child : Node) : List Item :=
  if child.tree.isVisible then
    (if child.kind = kind then [⟨child, path⟩] else []) ++
      inside child.source kind path child.before child.tree
  else []

theorem among_eq_flatMap (source : Source) (kind : Kind) (path : List Text)
    (before trees : List Tree) :
    among source kind path before trees =
      (Node.place source before trees).flatMap (listed kind path) := by
  induction trees generalizing before with
  | nil => exact among_nil
  | cons child rest ih =>
      rw [among_cons, ih, Node.place_cons, List.flatMap_cons]
      rfl

theorem within_eq_flatMap (kind : Kind) (path : List Text) (container : Node) :
    within container.source kind path container.tree =
      container.allChildren.flatMap (listed kind path) := by
  rw [within_eq, among_eq_flatMap]
  rfl

/-- The search goes into the first child that fills the field of a body. -/
theorem inBody_eq (source : Source) (kind : Kind) (path : List Text) (before trees : List Tree) :
    inBody source kind path trees =
      match (Node.place source before trees).find? fun child => child.tree.field = some .body with
      | none => []
      | some body => within source kind path body.tree := by
  induction trees generalizing before with
  | nil => rw [inBody]; rfl
  | cons child rest ih =>
      rw [inBody, Node.place_cons, List.find?_cons]
      by_cases fills : child.field = some .body
      · rw [if_pos fills, decide_eq_true fills]
      · rw [if_neg fills, decide_eq_false fills]
        exact ih _

theorem inModule_eq (kind : Kind) (path : List Text) (member : Node) :
    inModule member.source kind path member.tree =
      match member.field? .body with
      | none => []
      | some body => within member.source kind path body.tree := by
  obtain ⟨source, ⟨_, _, _, _, _, _, children⟩, before⟩ := member
  rw [inModule]
  exact inBody_eq source kind path [] children

theorem inside_eq (kind : Kind) (path : List Text) (member : Node) :
    inside member.source kind path member.before member.tree =
      if member.kind = .modItem then
        inModule member.source kind (path ++ [moduleName member]) member.tree
      else if member.isError then within member.source kind path member.tree
      else [] := rfl

theorem inside_of_opens (kind : Kind) (opens : Opens path member steps inner innerPath) :
    inside member.source kind path member.before member.tree =
      within inner.source kind innerPath inner.tree := by
  cases opens with
  | body isModule filled =>
      rw [inside_eq, if_pos isModule, inModule_eq, filled, (Node.field?_mem filled).1]
      rfl
  | error other marked => rw [inside_eq, if_neg other, if_pos marked]

/-- The search goes nowhere when a node opens nothing. -/
theorem inside_of_not_opens (kind : Kind)
    (closed : ∀ steps inner innerPath, ¬Opens path member steps inner innerPath) :
    inside member.source kind path member.before member.tree = [] := by
  rw [inside_eq]
  split
  · rename_i isModule
    rw [inModule_eq]
    cases filled : member.field? .body with
    | none => rfl
    | some body => exact absurd (.body isModule filled) (closed _ _ _)
  · rename_i other
    split
    · rename_i marked
      exact absurd (.error other marked) (closed _ _ _)
    · rfl

/-- What stands in a node is listed when what stands in the container that it opens is. -/
theorem inPreorder_inside {member : Node}
    (opened : ∀ steps inner innerPath, Opens path member steps inner innerPath →
      InPreorder (fun position (item : Item) => item.node.kind = kind ∧
          IsReached inner innerPath position item.node item.modulePath)
        (within inner.source kind innerPath inner.tree)) :
    InPreorder (fun position (item : Item) => item.node.kind = kind ∧
        IsReachedInside path member position item.node item.modulePath)
      (inside member.source kind path member.before member.tree) := by
  by_cases opens : ∃ steps inner innerPath, Opens path member steps inner innerPath
  · obtain ⟨steps, inner, innerPath, opens⟩ := opens
    rw [inside_of_opens kind opens]
    refine ((opened steps inner innerPath opens).below steps).congr ?_
    intro position item
    constructor
    · rintro ⟨rest, rfl, isKind, reached⟩
      exact ⟨isKind, steps, inner, innerPath, rest, opens, rfl, reached⟩
    · rintro ⟨isKind, steps', inner', innerPath', rest, opens', rfl, reached⟩
      obtain ⟨rfl, rfl, rfl⟩ := opens.unique opens'
      exact ⟨rest, rfl, isKind, reached⟩
  · rw [inside_of_not_opens kind fun steps inner innerPath found =>
      opens ⟨steps, inner, innerPath, found⟩]
    apply InPreorder.nil
    rintro position item ⟨-, steps, inner, innerPath, rest, found, -⟩
    exact opens ⟨steps, inner, innerPath, found⟩

theorem inPreorder_self (kind : Kind) (path : List Text) (child : Node) :
    InPreorder (fun position (item : Item) => item.node.kind = kind ∧
        position = [] ∧ item.node = child ∧ item.modulePath = path)
      (if child.kind = kind then [⟨child, path⟩] else []) := by
  split
  · rename_i isKind
    refine (InPreorder.singleton _).congr ?_
    rintro position ⟨node, nodePath⟩
    constructor
    · rintro ⟨rfl, same⟩
      obtain ⟨rfl, rfl⟩ := Item.mk.inj same
      exact ⟨isKind, rfl, rfl, rfl⟩
    · rintro ⟨-, rfl, rfl, rfl⟩
      exact ⟨rfl, rfl⟩
  · rename_i other
    apply InPreorder.nil
    rintro position item ⟨isKind, -, rfl, -⟩
    exact other isKind

theorem inPreorder_listed {child : Node}
    (opened : ∀ steps inner innerPath, Opens path child steps inner innerPath →
      InPreorder (fun position (item : Item) => item.node.kind = kind ∧
          IsReached inner innerPath position item.node item.modulePath)
        (within inner.source kind innerPath inner.tree)) :
    InPreorder (fun position (item : Item) => item.node.kind = kind ∧
        IsReachedFrom path child position item.node item.modulePath)
      (listed kind path child) := by
  rw [listed]
  split
  · rename_i visible
    refine ((inPreorder_self kind path child).append (inPreorder_inside opened) ?_).congr ?_
    · rintro _ _ position _ ⟨-, rfl, -⟩ ⟨-, steps, inner, innerPath, rest, -, rfl, reached⟩
      obtain ⟨first, more, split⟩ := List.exists_cons_of_ne_nil
        (List.append_ne_nil_of_right_ne_nil steps reached.ne_nil)
      rw [split]
      exact List.nil_lt_cons first more
    · intro position item
      rw [IsReachedFrom, and_iff_right visible, and_or_left]
  · rename_i hidden
    apply InPreorder.nil
    rintro position item ⟨-, visible, -⟩
    exact hidden visible

/-- The items of a container are those that are reached from it. -/
theorem inPreorder_within (kind : Kind) (container : Node) (path : List Text) :
    InPreorder (fun position (item : Item) => item.node.kind = kind ∧
        IsReached container path position item.node item.modulePath)
      (within container.source kind path container.tree) := by
  induction size : container.tree.size using Nat.strongRecOn generalizing container path with
  | _ count ih =>
      have children : ∀ child ∈ container.allChildren,
          InPreorder (fun position (item : Item) => item.node.kind = kind ∧
              IsReachedFrom path child position item.node item.modulePath)
            (listed kind path child) := by
        intro child member
        apply inPreorder_listed
        intro steps inner innerPath opens
        have smaller := Tree.size_lt_of_mem_children (Node.mem_allChildren member).2
        exact ih _ (size ▸ Nat.lt_of_le_of_lt opens.size_le smaller) inner innerPath rfl
      rw [within_eq_flatMap]
      refine (InPreorder.flatMap children).congr ?_
      intro position item
      rw [isReached_iff]
      constructor
      · rintro ⟨index, child, rest, found, rfl, isKind, reached⟩
        exact ⟨isKind, index, child, rest, found, rfl, reached⟩
      · rintro ⟨isKind, index, child, rest, found, rfl, reached⟩
        exact ⟨index, child, rest, found, rfl, isKind, reached⟩

end Item

/-- The items of one kind in a file are the nodes of this kind that are reached from its root, each
position once, in pre-order, with the names of the modules on the way. What is reached stands at its
position. -/
theorem itemsOf_inPreorder (kind : Kind) (root : Node) :
    InPreorder (fun position (item : Item) => item.node.kind = kind ∧
        Item.IsReached root [] position item.node item.modulePath)
      (itemsOf kind root) ∧
    ∀ position node path, Item.IsReached root [] position node path →
      root.nodeAt? position = some node :=
  ⟨Item.inPreorder_within kind root [], fun _ _ _ reached => reached.nodeAt?⟩

/-- A file with a module that has no name and a place that does not follow the grammar, with a
function in each. -/
def nameless : Node :=
  let function : Tree := ⟨.functionItem, 0, 0, true, false, none, []⟩
  let body : Tree := ⟨.other "declaration_list", 0, 0, true, false, some .body, [function]⟩
  .root (.ofText []) ⟨.sourceFile, 0, 0, true, false, none,
    [⟨.modItem, 0, 0, true, false, none, [body]⟩, ⟨.error, 0, 0, true, false, none, [function]⟩]⟩

theorem itemsOf_inPreorder_nameless :
    (∃ item ∈ itemsOf .functionItem nameless,
      nameless.nodeAt? [0, 0, 0] = some item.node ∧ item.modulePath = ["_"]) ∧
    ∃ item ∈ itemsOf .functionItem nameless,
      nameless.nodeAt? [1, 0] = some item.node ∧ item.modulePath = [] := by
  obtain ⟨⟨placed, shown, -, exact⟩, stands⟩ := itemsOf_inPreorder .functionItem nameless
  have listed {position : Position} {node : Node} {path : List Text}
      (reached : Item.IsReached nameless [] position node path)
      (isFunction : node.kind = .functionItem) :
      ∃ item ∈ itemsOf .functionItem nameless,
        nameless.nodeAt? position = some item.node ∧ item.modulePath = path := by
    have member := (exact position ⟨node, path⟩).mpr ⟨isFunction, reached⟩
    exact ⟨⟨node, path⟩, shown ▸ List.mem_map_of_mem member, stands _ _ _ reached, rfl⟩
  have inModule : Item.IsContainer nameless [] ([] ++ 0 :: [0]) _ ["_"] :=
    .opened .root rfl rfl (.body rfl rfl)
  have inError : Item.IsContainer nameless [] ([] ++ 1 :: []) _ [] :=
    .opened .root rfl rfl (.error (by decide) rfl)
  have first : Item.IsReached nameless [] ([0, 0] ++ [0]) _ ["_"] := .child inModule rfl rfl
  have second : Item.IsReached nameless [] ([1] ++ [0]) _ [] := .child inError rfl rfl
  exact ⟨listed first rfl, listed second rfl⟩

end HarnessIndex.Syntax
