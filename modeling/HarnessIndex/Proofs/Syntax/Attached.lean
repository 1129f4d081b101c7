import HarnessIndex.Proofs.Syntax.Items
import HarnessIndex.Reader.Source
import Mathlib.Data.List.Basic

/-!
# Which attributes belong to which child

An attribute belongs to the next sibling that is neither an attribute nor a comment, whatever
comments stand between the two. Seen from front to back, attributes wait until such a sibling takes
all that are waiting: none is taken twice, and only those behind the last such sibling are left.
-/

namespace HarnessIndex.Syntax.Node

/-- How many named siblings stand before a node. Of the named children of a node no two have the
same rank. -/
def rank (node : Node) : Nat :=
  node.before.length

/-- The children of a node that attributes can belong to. -/
def hosts (parent : Node) : List Node :=
  parent.children.filter fun child => child.kind ≠ .attributeItem

def attributeChildren (parent : Node) : List Node :=
  parent.children.filter fun child => child.kind = .attributeItem

/-- Whether a child takes the attributes that are waiting. -/
def isHost (child : Node) : Bool :=
  child.kind ≠ .attributeItem && child.tree.isVisible

/-- Whether a child is an attribute, which then waits. -/
def isAttribute (child : Node) : Bool :=
  child.kind = .attributeItem && child.tree.isVisible

theorem hosts_eq (parent : Node) : parent.hosts = parent.allChildren.filter isHost :=
  List.filter_filter

theorem attributeChildren_eq (parent : Node) :
    parent.attributeChildren = parent.allChildren.filter isAttribute :=
  List.filter_filter

theorem named_of_isHost {child : Node} (host : isHost child = true) : child.tree.named = true :=
  (Bool.and_eq_true_iff.mp (Bool.and_eq_true_iff.mp host).2).1

theorem named_of_isAttribute {child : Node} (attached : isAttribute child = true) :
    child.tree.named = true :=
  (Bool.and_eq_true_iff.mp (Bool.and_eq_true_iff.mp attached).2).1

/-! ## Taking the attributes that wait -/

variable {source : Source} {before : List Tree}

/-- Passing a child keeps account of the attributes: what it takes and what waits behind it is what
waited before it, and the child itself if it is an attribute. -/
theorem attributesBefore_pass (source : Source) (child : Tree) (before : List Tree) :
    (if isHost ⟨source, child, before⟩ then attributesBefore source before else []) ++
        attributesBefore source (pass child before) =
      attributesBefore source before ++
        if isAttribute ⟨source, child, before⟩ then [⟨source, child, before⟩] else [] := by
  cases named : child.named with
  | false => simp [isHost, isAttribute, Tree.isVisible, pass, named]
  | true =>
      by_cases attached : child.kind = .attributeItem
      · simp [isHost, isAttribute, Tree.isVisible, Node.kind, pass, named, attributesBefore,
          attached, Kind.isComment]
      · cases comment : child.kind.isComment <;>
          simp [isHost, isAttribute, Tree.isVisible, Node.kind, pass, named, attributesBefore,
            attached, comment]

theorem filter_place_cons (keep : Node → Bool) (source : Source) (child : Tree)
    (before rest : List Tree) :
    (place source before (child :: rest)).filter keep =
      (if keep ⟨source, child, before⟩ then [⟨source, child, before⟩] else []) ++
        (place source (pass child before) rest).filter keep := by
  rw [place_cons, List.filter_cons]
  split <;> rfl

theorem flatMap_attributes_append (source : Source) (before trees : List Tree) :
    ((place source before trees).filter isHost).flatMap attributes ++
        attributesBefore source (passed before trees) =
      attributesBefore source before ++ (place source before trees).filter isAttribute := by
  induction trees generalizing before with
  | nil => simp
  | cons child rest ih =>
      have taken :
          (if isHost ⟨source, child, before⟩ then [⟨source, child, before⟩] else []).flatMap
              attributes =
            if isHost ⟨source, child, before⟩ then attributesBefore source before else [] := by
        split
        · exact List.append_nil _
        · rfl
      calc
        ((place source before (child :: rest)).filter isHost).flatMap attributes ++
            attributesBefore source (passed before (child :: rest)) =
          (if isHost ⟨source, child, before⟩ then attributesBefore source before else []) ++
            (((place source (pass child before) rest).filter isHost).flatMap attributes ++
              attributesBefore source (passed (pass child before) rest)) := by
          rw [filter_place_cons, List.flatMap_append, taken, passed_cons, List.append_assoc]
        _ = attributesBefore source before ++
            (place source before (child :: rest)).filter isAttribute := by
          rw [ih, ← List.append_assoc, attributesBefore_pass, List.append_assoc,
            ← filter_place_cons]

/-! ## Where attributes stand -/

theorem rank_le_of_mem_place {trees : List Tree} {node : Node}
    (member : node ∈ place source before trees) : before.length ≤ node.rank := by
  induction trees generalizing before with
  | nil => simp at member
  | cons child rest ih =>
      rcases List.mem_cons.mp member with rfl | later
      · exact Nat.le_refl _
      · have bound := ih later
        rw [pass] at bound
        split at bound
        · exact Nat.le_of_succ_le bound
        · exact bound

theorem pairwise_rank {keep : Node → Bool} {trees : List Tree}
    (named : ∀ node, keep node = true → node.tree.named = true) :
    ((place source before trees).filter keep).Pairwise fun first later =>
      first.rank < later.rank := by
  induction trees generalizing before with
  | nil => exact List.Pairwise.nil
  | cons child rest ih =>
      rw [place_cons, List.filter_cons]
      split
      · rename_i kept
        refine List.pairwise_cons.mpr ⟨?_, ih⟩
        intro later member
        have bound := rank_le_of_mem_place (List.mem_filter.mp member).1
        rw [pass, if_pos (named _ kept)] at bound
        exact bound
      · exact ih

theorem rank_lt_of_mem_attributesBefore {found : Node}
    (member : found ∈ attributesBefore source before) : found.rank < before.length := by
  induction before with
  | nil => simp [attributesBefore] at member
  | cons tree before ih =>
      rw [attributesBefore] at member
      split at member
      · rcases List.mem_append.mp member with early | last
        · exact Nat.lt_succ_of_lt (ih early)
        · rw [List.mem_singleton.mp last]
          exact Nat.lt_succ_self _
      · split at member
        · exact Nat.lt_succ_of_lt (ih member)
        · simp at member

/-- Behind a child that takes what waits nothing waits any more. -/
theorem attributesBefore_pass_of_isHost {child : Tree}
    (host : isHost ⟨source, child, before⟩ = true) :
    attributesBefore source (pass child before) = [] := by
  have other : isAttribute ⟨source, child, before⟩ = false := by
    rw [isHost, decide_not, Bool.and_eq_true, Bool.not_eq_true'] at host
    rw [isAttribute, host.1, Bool.false_and]
  have account := attributesBefore_pass source child before
  rw [if_pos host, other, if_neg Bool.false_ne_true] at account
  exact List.append_cancel_left account

/-- Attributes that still wait stand behind every child that could have taken them. -/
theorem rank_lt_of_waiting {trees : List Tree} {host waiting : Node}
    (member : host ∈ (place source before trees).filter isHost)
    (waits : waiting ∈ attributesBefore source (passed before trees)) :
    host.rank < waiting.rank := by
  induction trees generalizing before with
  | nil => simp at member
  | cons child rest ih =>
      rw [filter_place_cons] at member
      rcases List.mem_append.mp member with here | later
      · split at here
        · rename_i takes
          have behind : waiting ∈ (place source (pass child before) rest).filter isAttribute := by
            have account := flatMap_attributes_append source (pass child before) rest
            rw [attributesBefore_pass_of_isHost takes, List.nil_append] at account
            exact account ▸ List.mem_append_right _ waits
          have bound := rank_le_of_mem_place (List.mem_filter.mp behind).1
          rw [pass, if_pos (named_of_isHost takes)] at bound
          rw [List.mem_singleton.mp here]
          exact bound
        · simp at here
      · exact ih later waits

/-- Of some children with increasing ranks the last one has the greatest. -/
theorem exists_getLast?_of_mem {nodes : List Node} {node : Node}
    (sorted : nodes.Pairwise fun first later => first.rank < later.rank) (member : node ∈ nodes) :
    ∃ last, nodes.getLast? = some last ∧ node.rank ≤ last.rank := by
  obtain rfl | ⟨front, last, rfl⟩ := List.eq_nil_or_concat' nodes
  · simp at member
  · refine ⟨last, List.getLast?_concat .., ?_⟩
    rcases List.mem_append.mp member with early | same
    · exact Nat.le_of_lt ((List.pairwise_append.mp sorted).2.2 node early last (by simp))
    · exact Nat.le_of_eq (congrArg rank (List.mem_singleton.mp same))

/-! ## Comments -/

def isCode (tree : Tree) : Bool :=
  !tree.kind.isComment

/-- A node without the comments among its children. -/
def withoutComments (parent : Node) : Node :=
  { parent with tree := { parent.tree with children := parent.tree.children.filter isCode } }

/-- A node and the attributes that belong to it. -/
def withAttributes (host : Node) : Tree × List Tree :=
  (host.tree, host.attributes.map Node.tree)

theorem filter_pass (child : Tree) (before : List Tree) :
    (pass child before).filter isCode =
      if isCode child then pass child (before.filter isCode) else before.filter isCode := by
  cases named : child.named <;> cases code : isCode child <;> simp [pass, named, code]

theorem map_tree_attributesBefore (source : Source) (before : List Tree) :
    (attributesBefore source (before.filter isCode)).map Node.tree =
      (attributesBefore source before).map Node.tree := by
  induction before with
  | nil => rfl
  | cons tree before ih =>
      rw [List.filter_cons]
      cases comment : tree.kind.isComment with
      | true =>
          have other : tree.kind ≠ .attributeItem := by
            intro same
            rw [same] at comment
            exact absurd comment (by decide)
          rw [isCode, comment, Bool.not_true, if_neg Bool.false_ne_true, ih, attributesBefore,
            if_neg other, if_pos comment]
      | false =>
          rw [isCode, comment, Bool.not_false, if_pos rfl, attributesBefore, attributesBefore]
          split
          · rw [List.map_append, List.map_append, ih]
            rfl
          · rw [comment]
            rfl

theorem isHost_of_comment {child : Tree} (comment : isCode child = false) :
    isHost ⟨source, child, before⟩ = false := by
  rw [isCode, Bool.not_eq_false'] at comment
  rw [isHost, Tree.isVisible, comment, Bool.not_true, Bool.and_false, Bool.and_false]

/-- Without the comments among them the same children take the same attributes. -/
theorem map_withAttributes_filter (source : Source) (before trees : List Tree) :
    ((place source (before.filter isCode) (trees.filter isCode)).filter isHost).map
        withAttributes =
      ((place source before trees).filter isHost).map withAttributes := by
  induction trees generalizing before with
  | nil => rfl
  | cons child rest ih =>
      have later := ih (pass child before)
      rw [filter_pass] at later
      rw [List.filter_cons, filter_place_cons _ _ _ before, List.map_append, ← later]
      cases code : isCode child with
      | true =>
          have same : withAttributes ⟨source, child, before.filter isCode⟩ =
              withAttributes ⟨source, child, before⟩ :=
            congrArg (Prod.mk child) (map_tree_attributesBefore source before)
          rw [if_pos rfl, if_pos rfl, filter_place_cons, List.map_append]
          congr 1
          change List.map _ (if isHost ⟨source, child, before⟩ then _ else _) = _
          split
          · rw [List.map_singleton, List.map_singleton, same]
          · rfl
      | false =>
          rw [if_neg Bool.false_ne_true, if_neg Bool.false_ne_true, isHost_of_comment code,
            if_neg Bool.false_ne_true]
          rfl

/-! ## Sharing out the attributes of a node -/

theorem pairwise_rank_hosts (parent : Node) :
    parent.hosts.Pairwise fun first later => first.rank < later.rank := by
  rw [hosts_eq]
  exact pairwise_rank fun _ => named_of_isHost

/-- The attributes that are taken, and those that wait for ever. -/
theorem flatMap_attributes_hosts_append (parent : Node) :
    parent.hosts.flatMap attributes ++
        attributesBefore parent.source (passed [] parent.tree.children) =
      parent.attributeChildren := by
  rw [hosts_eq, attributeChildren_eq]
  exact flatMap_attributes_append parent.source [] parent.tree.children

theorem pairwise_rank_taken (parent : Node) :
    (parent.hosts.flatMap attributes).Pairwise fun first later => first.rank < later.rank := by
  have all : parent.attributeChildren.Pairwise fun first later => first.rank < later.rank := by
    rw [attributeChildren_eq]
    exact pairwise_rank fun _ => named_of_isAttribute
  rw [← flatMap_attributes_hosts_append] at all
  exact (List.pairwise_append.mp all).1

/-- An attribute is taken when it stands before the last child that can have some. -/
theorem flatMap_attributes_hosts (parent : Node) :
    parent.hosts.flatMap attributes =
      parent.attributeChildren.filter fun attached =>
        parent.hosts.getLast?.any fun last => attached.rank < last.rank := by
  have taken : ∀ attached ∈ parent.hosts.flatMap attributes,
      (parent.hosts.getLast?.any fun last => attached.rank < last.rank) = true := by
    intro attached member
    obtain ⟨host, known, member⟩ := List.mem_flatMap.mp member
    obtain ⟨last, found, bound⟩ := exists_getLast?_of_mem (pairwise_rank_hosts parent) known
    rw [found, Option.any_some, decide_eq_true_iff]
    exact Nat.lt_of_lt_of_le (rank_lt_of_mem_attributesBefore member) bound
  have left : ∀ attached ∈ attributesBefore parent.source (passed [] parent.tree.children),
      ¬(parent.hosts.getLast?.any fun last => attached.rank < last.rank) = true := by
    intro attached waits before
    obtain ⟨last, found, less⟩ := (Option.any_eq_true _ _).mp before
    have member := List.mem_of_getLast? found
    rw [hosts_eq] at member
    exact Nat.lt_asymm (rank_lt_of_waiting member waits) (of_decide_eq_true less)
  rw [← flatMap_attributes_hosts_append, List.filter_append, List.filter_eq_self.mpr taken,
    List.filter_eq_nil_iff.mpr left, List.append_nil]

/-- The children of a node share its attributes out between them: no attribute belongs to two of
them, the attributes of each come in order, and all together are the attributes of the node but
those behind the last child that can have some. Comments make no difference. -/
theorem attributes_shared_out (parent : Node) :
    (parent.hosts.Pairwise fun first later =>
        (first.attributes.map rank).Disjoint (later.attributes.map rank)) ∧
      (∀ host ∈ parent.hosts, host.attributes.Pairwise fun first later =>
        first.rank < later.rank) ∧
      parent.hosts.flatMap attributes =
        (parent.attributeChildren.filter fun attached =>
          parent.hosts.getLast?.any fun last => attached.rank < last.rank) ∧
      parent.withoutComments.hosts.map withAttributes = parent.hosts.map withAttributes := by
  obtain ⟨inOrder, apart⟩ := List.pairwise_flatMap.mp (pairwise_rank_taken parent)
  refine ⟨?_, inOrder, flatMap_attributes_hosts parent, ?_⟩
  · apply apart.imp
    intro first later less rank inFirst inLater
    obtain ⟨left, leftMem, rfl⟩ := List.mem_map.mp inFirst
    obtain ⟨right, rightMem, same⟩ := List.mem_map.mp inLater
    exact absurd same (Nat.ne_of_gt (less left leftMem right rightMem))
  · rw [hosts_eq, hosts_eq]
    exact map_withAttributes_filter parent.source [] parent.tree.children

/-- A file with attributes of two items, comments between them, and an attribute behind both. -/
def decorated : Node :=
  (Reader.parse "#[a]/*x*/#[b]fn f(){}//y\n#[c]mod m{}#[d]").root

theorem attributes_shared_out_decorated :
    (decorated.hosts.map fun host => host.attributes.map rank) = [[0, 2], [5]] ∧
      decorated.attributeChildren.map rank = [0, 2, 5, 7] ∧
      ∃ host ∈ decorated.hosts, host.attributes.map rank = [0, 2] ∧
        host.attributes.Pairwise fun first later => first.rank < later.rank := by
  have facts : (decorated.hosts.map fun host => host.attributes.map rank) = [[0, 2], [5]] ∧
      decorated.attributeChildren.map rank = [0, 2, 5, 7] := by
    decide +kernel
  have known : [0, 2] ∈ decorated.hosts.map fun host => host.attributes.map rank := by
    rw [facts.1]
    exact List.mem_cons_self
  obtain ⟨host, member, ranks⟩ := List.mem_map.mp known
  exact ⟨facts.1, facts.2, host, member, ranks,
    (attributes_shared_out decorated).2.1 host member⟩

end HarnessIndex.Syntax.Node
