/-
The nodes of a tree in order.

A node comes before what is below it (`preorder_eq`), and the nodes of trees side by side come tree by tree
(`preorderAll_eq_flatMap`).
-/
import Mathlib.Tactic
import MarkVeil.Token.Node

namespace MarkVeil.Token

variable {m n o c : Node} {ns : List Node}

theorem preorder_eq (n : Node) : n.preorder = n :: Node.preorderAll n.children := by
  cases n
  rw [Node.preorder]

theorem mem_preorder_self (n : Node) : n ∈ n.preorder := by
  rw [preorder_eq]
  exact List.mem_cons_self

theorem preorderAll_eq_flatMap (ns : List Node) : Node.preorderAll ns = ns.flatMap Node.preorder := by
  induction ns with
  | nil => rfl
  | cons n ns ih => rw [Node.preorderAll, ih, List.flatMap_cons]

theorem mem_preorderAll : m ∈ Node.preorderAll ns ↔ ∃ n ∈ ns, m ∈ n.preorder := by
  rw [preorderAll_eq_flatMap, List.mem_flatMap]

theorem mem_preorderAll_of_mem (h : n ∈ ns) : n ∈ Node.preorderAll ns := mem_preorderAll.2 ⟨n, h, mem_preorder_self n⟩

theorem mem_preorderAll_reverse : n ∈ Node.preorderAll ns.reverse ↔ n ∈ Node.preorderAll ns := by
  simp [mem_preorderAll]

/-- what holds of a node and of all below it -/
theorem forall_mem_preorder {P : Node → Prop} :
    (∀ m ∈ n.preorder, P m) ↔ P n ∧ ∀ c ∈ n.children, ∀ m ∈ c.preorder, P m := by
  rw [preorder_eq, List.forall_mem_cons]
  refine and_congr_right fun _ => ⟨fun h c hc m hm => h m (mem_preorderAll.2 ⟨c, hc, hm⟩), fun h m hm => ?_⟩
  obtain ⟨c, hc, hm⟩ := mem_preorderAll.1 hm
  exact h c hc m hm

theorem preorderAll_append (ns ms : List Node) :
    Node.preorderAll (ns ++ ms) = Node.preorderAll ns ++ Node.preorderAll ms := by
  simp only [preorderAll_eq_flatMap, List.flatMap_append]

theorem preorderAll_leaf (hn : n.children = []) (ns : List Node) :
    Node.preorderAll (n :: ns) = n :: Node.preorderAll ns := by
  rw [Node.preorderAll, preorder_eq, hn]
  rfl

/-- tokens around others are before and behind them -/
theorem preorderAll_pair (ho : o.children = []) (hc : c.children = []) (ns : List Node) :
    Node.preorderAll (o :: (ns ++ [c])) = o :: (Node.preorderAll ns ++ [c]) := by
  rw [preorderAll_leaf ho, preorderAll_append, preorderAll_leaf hc]
  rfl

end MarkVeil.Token
