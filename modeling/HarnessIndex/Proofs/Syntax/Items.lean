import HarnessIndex.Syntax.Items

/-!
# Where items stand

The items of a container are some of its visible children, and the items of the containers that
stand directly below it: the bodies of its modules, and its children that mark an error. Everything
that is known about the items of a file is proved along these containers, by induction on the size
of the tree.
-/

namespace HarnessIndex.Syntax

namespace Tree

theorem size_le_sizes {tree : Tree} {trees : List Tree} (member : tree ∈ trees) :
    tree.size ≤ sizes trees := by
  induction trees with
  | nil => simp at member
  | cons next rest ih =>
      rw [sizes_cons]
      rcases List.mem_cons.mp member with same | later
      · rw [same]
        omega
      · have bound := ih later
        omega

theorem size_lt_of_mem_children {parent child : Tree} (member : child ∈ parent.children) :
    child.size < parent.size := by
  have bound := size_le_sizes member
  rw [size_eq parent]
  omega

/-- What holds of a tree whenever it holds of all smaller ones holds of every tree. -/
theorem size_induction {motive : Tree → Prop}
    (step : ∀ tree, (∀ smaller : Tree, smaller.size < tree.size → motive smaller) → motive tree)
    (tree : Tree) : motive tree := by
  induction size : tree.size using Nat.strongRecOn generalizing tree with
  | _ count ih =>
      apply step
      intro smaller less
      exact ih smaller.size (size ▸ less) smaller rfl

end Tree

namespace Node

/-- The earlier named siblings as they are seen after some more children. -/
def passed (before trees : List Tree) : List Tree :=
  trees.foldl (fun before child => pass child before) before

@[simp] theorem passed_nil (before : List Tree) : passed before [] = before := rfl

@[simp] theorem passed_cons (before : List Tree) (child : Tree) (rest : List Tree) :
    passed before (child :: rest) = passed (pass child before) rest := rfl

theorem mem_of_mem_pass {tree child : Tree} {before : List Tree}
    (member : tree ∈ pass child before) : tree = child ∨ tree ∈ before := by
  rw [pass] at member
  split at member
  · exact List.mem_cons.mp member
  · exact Or.inr member

theorem mem_of_mem_passed {tree : Tree} {before trees : List Tree}
    (member : tree ∈ passed before trees) : tree ∈ before ∨ tree ∈ trees := by
  induction trees generalizing before with
  | nil => exact Or.inl member
  | cons child rest ih =>
      rcases ih member with early | late
      · rcases mem_of_mem_pass early with same | old
        · exact Or.inr (same ▸ List.mem_cons_self)
        · exact Or.inl old
      · exact Or.inr (List.mem_cons_of_mem child late)

theorem tree_mem_of_mem_attributesBefore {source : Source} {before : List Tree} {found : Node}
    (member : found ∈ attributesBefore source before) :
    found.source = source ∧ found.tree ∈ before := by
  induction before with
  | nil => simp [attributesBefore] at member
  | cons tree before ih =>
      rw [attributesBefore] at member
      split at member
      · rcases List.mem_append.mp member with early | last
        · exact ⟨(ih early).1, List.mem_cons_of_mem tree (ih early).2⟩
        · rw [List.mem_singleton.mp last]
          exact ⟨rfl, List.mem_cons_self⟩
      · split at member
        · exact ⟨(ih member).1, List.mem_cons_of_mem tree (ih member).2⟩
        · simp at member

theorem mem_place {source : Source} {before trees : List Tree} {node : Node}
    (member : node ∈ place source before trees) :
    node.source = source ∧ node.tree ∈ trees := by
  induction trees generalizing before with
  | nil => simp at member
  | cons child rest ih =>
      rcases List.mem_cons.mp member with same | later
      · rw [same]
        exact ⟨rfl, List.mem_cons_self⟩
      · exact ⟨(ih later).1, List.mem_cons_of_mem child (ih later).2⟩

@[simp] theorem map_tree_allChildren (node : Node) :
    node.allChildren.map Node.tree = node.tree.children :=
  map_tree_place node.source [] node.tree.children

/-- A child in its place is a child of the tree, in the same source. -/
theorem mem_allChildren {node child : Node} (member : child ∈ node.allChildren) :
    child.source = node.source ∧ child.tree ∈ node.tree.children :=
  mem_place member

/-- What holds of a node whenever it holds of its children holds of every node. -/
theorem child_induction {motive : Node → Prop}
    (step : ∀ node : Node, (∀ child ∈ node.allChildren, motive child) → motive node)
    (node : Node) : motive node := by
  induction size : node.tree.size using Nat.strongRecOn generalizing node with
  | _ count ih =>
      apply step
      intro child member
      have smaller := Tree.size_lt_of_mem_children (mem_allChildren member).2
      exact ih child.tree.size (size ▸ smaller) child rfl

theorem mem_children {node child : Node} (member : child ∈ node.children) :
    child.source = node.source ∧ child.tree ∈ node.tree.children :=
  mem_allChildren (List.mem_filter.mp member).1

theorem field?_mem {node child : Node} {field : Field} (filled : node.field? field = some child) :
    child.source = node.source ∧ child.tree ∈ node.tree.children :=
  mem_allChildren (List.mem_of_find?_eq_some filled)

theorem nonempty?_eq_some {text result : Text} :
    nonempty? text = some result ↔ text = result ∧ result ≠ [] := by
  rw [nonempty?]
  constructor
  · intro found
    split at found
    · simp at found
    · rename_i some
      rw [← Option.some.inj found]
      exact ⟨rfl, by simpa using some⟩
  · rintro ⟨rfl, some⟩
    simpa using some

/-- The path of an attribute is the text of the first node inside it. -/
theorem exists_of_attributePath? {item : Node} {name : Text}
    (found : item.attributePath? = some name) :
    ∃ body path, item.attributeBody? = some body ∧ body.children.head? = some path ∧
      path.kind.isPath = true ∧ Text.withoutBlanks path.text = name ∧ name ≠ [] := by
  obtain ⟨body, inner, found⟩ := Option.bind_eq_some_iff.mp found
  obtain ⟨path, first, found⟩ := Option.bind_eq_some_iff.mp found
  split at found
  · rename_i isPath
    obtain ⟨same, some⟩ := nonempty?_eq_some.mp found
    exact ⟨body, path, inner, first, isPath, same, some⟩
  · simp at found

/-- The path of a callee is the text of the node that is called. -/
theorem exists_of_callee? {node : Node} {name : Text} (found : node.callee? = some name) :
    ∃ target, node.calleeNode? = some target ∧ target.kind.isPath = true ∧
      Text.withoutBlanks target.text = name ∧ name ≠ [] := by
  obtain ⟨target, called, found⟩ := Option.bind_eq_some_iff.mp found
  split at found
  · rename_i isPath
    obtain ⟨same, some⟩ := nonempty?_eq_some.mp found
    exact ⟨target, called, isPath, same, some⟩
  · simp at found

/-- The name of an item is the text of the child that holds it. -/
theorem exists_of_name? {item : Node} {name : Text} (found : item.name? = some name) :
    ∃ child, item.field? .name = some child ∧ child.text = name ∧ name ≠ [] := by
  obtain ⟨child, filled, found⟩ := Option.bind_eq_some_iff.mp found
  split at found
  · simp at found
  · obtain ⟨same, some⟩ := nonempty?_eq_some.mp found
    exact ⟨child, filled, same, some⟩

theorem attributeBody?_mem {item body : Node} (inner : item.attributeBody? = some body) :
    item.kind = .attributeItem ∧ body ∈ item.children := by
  rw [attributeBody?] at inner
  split at inner
  · rename_i kind
    exact ⟨kind, List.mem_of_find?_eq_some inner⟩
  · simp at inner

end Node

namespace Item

/-- A container that stands directly in a child: the body of a module, or a child that marks an
error. -/
inductive Holds (child : Tree) : Tree → Prop where
  | body {body : Tree} : child.kind = .modItem → body ∈ child.children → Holds child body
  | error : child.isError → Holds child child

theorem Holds.size_le {child container : Tree} (holds : Holds child container) :
    container.size ≤ child.size := by
  cases holds with
  | body _ member => exact Nat.le_of_lt (Tree.size_lt_of_mem_children member)
  | error _ => exact Nat.le_refl _

def inside (source : Source) (kind : Kind) (path : List Text) (before : List Tree) (child : Tree) :
    List Item :=
  if child.kind = .modItem then
    inModule source kind (path ++ [moduleName ⟨source, child, before⟩]) child
  else if child.isError then within source kind path child
  else []

variable {source : Source} {kind : Kind} {path : List Text} {before : List Tree}

theorem within_eq (tree : Tree) :
    within source kind path tree = among source kind path [] tree.children := by
  cases tree
  rw [within]

@[simp] theorem among_nil : among source kind path before [] = [] := by
  rw [among]

theorem among_cons (child : Tree) (rest : List Tree) :
    among source kind path before (child :: rest) =
      (if child.isVisible then
        (if child.kind = kind then [⟨⟨source, child, before⟩, path⟩] else []) ++
          inside source kind path before child
      else []) ++ among source kind path (Node.pass child before) rest := by
  rw [among, inside]

theorem among_cons_eq_append (child : Tree) (rest : List Tree) :
    among source kind path before (child :: rest) =
      among source kind path before [child] ++
        among source kind path (Node.pass child before) rest := by
  rw [among_cons child rest, among_cons child [], among_nil, List.append_nil]

/-- What stands in some children, the first body counting, stands in one of them or nowhere. -/
theorem inBody_cases (trees : List Tree) :
    inBody source kind path trees = [] ∨
      ∃ body ∈ trees, inBody source kind path trees = within source kind path body := by
  induction trees with
  | nil =>
      rw [inBody]
      exact Or.inl rfl
  | cons child rest ih =>
      rw [inBody]
      split
      · exact Or.inr ⟨child, List.mem_cons_self, rfl⟩
      · rcases ih with none | ⟨body, member, same⟩
        · exact Or.inl none
        · exact Or.inr ⟨body, List.mem_cons_of_mem child member, same⟩

/-- The items inside a child are those of one container in it, if there are any. -/
theorem inside_cases (child : Tree) :
    inside source kind path before child = [] ∨
      ∃ container path', Holds child container ∧
        inside source kind path before child = within source kind path' container := by
  rw [inside]
  split
  · rename_i isModule
    obtain ⟨_, _, _, _, _, _, children⟩ := child
    rw [inModule]
    rcases inBody_cases children with none | ⟨body, member, same⟩
    · exact Or.inl none
    · exact Or.inr ⟨body, _, .body isModule member, same⟩
  · split
    · rename_i marked
      exact Or.inr ⟨child, path, .error marked, rfl⟩
    · exact Or.inl rfl

theorem exists_of_mem_inside {item : Item} {child : Tree}
    (member : item ∈ inside source kind path before child) :
    ∃ container path', Holds child container ∧ item ∈ within source kind path' container := by
  rcases inside_cases child with none | ⟨container, path', holds, same⟩
  · rw [none] at member
    simp at member
  · exact ⟨container, path', holds, same ▸ member⟩

/-- An item among some children is one of them, or stands in a container that one of them holds. -/
theorem mem_among {item : Item} {trees : List Tree}
    (member : item ∈ among source kind path before trees) :
    ∃ front child back, trees = front ++ child :: back ∧ child.isVisible ∧
      (child.kind = kind ∧ item = ⟨⟨source, child, Node.passed before front⟩, path⟩ ∨
        ∃ container path', Holds child container ∧ item ∈ within source kind path' container) := by
  induction trees generalizing before with
  | nil => simp at member
  | cons child rest ih =>
      rw [among_cons] at member
      rcases List.mem_append.mp member with here | later
      · split at here
        · rename_i visible
          refine ⟨[], child, rest, rfl, visible, ?_⟩
          rcases List.mem_append.mp here with self | inner
          · split at self
            · rename_i same
              exact Or.inl ⟨same, List.mem_singleton.mp self⟩
            · simp at self
          · exact Or.inr (exists_of_mem_inside inner)
        · simp at here
      · obtain ⟨front, next, back, split, visible, found⟩ := ih later
        exact ⟨child :: front, next, back, by rw [split, List.cons_append], visible, found⟩

/-- An item of a container is one of its children, or stands in a container that one of them
holds. -/
theorem mem_within {item : Item} {tree : Tree} (member : item ∈ within source kind path tree) :
    ∃ front child back, tree.children = front ++ child :: back ∧ child.isVisible ∧
      (child.kind = kind ∧ item = ⟨⟨source, child, Node.passed [] front⟩, path⟩ ∨
        ∃ container path', Holds child container ∧ item ∈ within source kind path' container) := by
  rw [within_eq] at member
  exact mem_among member

/-- Every item of a container has the kind that was asked for, and lies in the same source. -/
theorem kind_and_source_of_mem_within {item : Item} (tree : Tree)
    (member : item ∈ within source kind path tree) :
    item.node.kind = kind ∧ item.node.source = source := by
  induction tree using Tree.size_induction generalizing path with
  | step tree ih =>
      obtain ⟨front, child, back, split, -, own | ⟨container, path', holds, inner⟩⟩ :=
        mem_within member
      · obtain ⟨same, rfl⟩ := own
        exact ⟨same, rfl⟩
      · have smaller : child.size < tree.size :=
          Tree.size_lt_of_mem_children (by simp [split])
        exact ih container (Nat.lt_of_le_of_lt holds.size_le smaller) inner

end Item

/-- The functions of a file are functions, in the source of the file. -/
theorem kind_and_source_of_mem_functionsOf {root : Node} {item : Item}
    (member : item ∈ functionsOf root) :
    item.node.kind = .functionItem ∧ item.node.source = root.source :=
  Item.kind_and_source_of_mem_within root.tree member

end HarnessIndex.Syntax
