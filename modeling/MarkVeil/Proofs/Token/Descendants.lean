/-
All nodes of a tree, taken from a stack.

A place is the way from the root to a node: the numbers of the children on the way down. Places in lexicographic order
are places in document order: a node is before what is below it, and a child with all below it is before the next child.
The stack begins with the root, and each node that is taken from it leaves its children there. So what is still to come
is at all times the traversal of the trees on the stack (`preorderAll_pop`). Main result:
- `descendants_exact`: what comes off the stack is the recursive traversal, with the node of each place of the tree once
  and in order, and after that nothing comes.
-/
import MarkVeil.Proofs.Token.Preorder

namespace MarkVeil.Token

variable {m n : Node} {i : Nat} {place : List Nat}

/-! ## Places -/

/-- the node at a place of a tree -/
def Node.at? : Node → List Nat → Option Node
  | n, [] => some n
  | n, i :: place => n.children[i]?.bind fun c => c.at? place

/-- entries of a child number `i` as entries of its parent -/
def below (i : Nat) (entries : List (List Nat × Node)) : List (List Nat × Node) :=
  entries.map fun e => (i :: e.1, e.2)

mutual

/-- the nodes of a tree, each with its place -/
def tour : Node → List (List Nat × Node)
  | ⟨kind, span?, markup, tag, info?, content?, children⟩ =>
    ([], ⟨kind, span?, markup, tag, info?, content?, children⟩) :: tourAll 0 children

def tourAll (i : Nat) : List Node → List (List Nat × Node)
  | [] => []
  | n :: ns => below i (tour n) ++ tourAll (i + 1) ns

end

theorem mem_below : (place, m) ∈ below i (tour n) ↔ ∃ rest, place = i :: rest ∧ (rest, m) ∈ tour n := by
  simp only [below, List.mem_map, Prod.exists, Prod.mk.injEq]
  constructor
  · rintro ⟨rest, m, h, rfl, rfl⟩
    exact ⟨rest, rfl, h⟩
  · rintro ⟨rest, rfl, h⟩
    exact ⟨rest, m, h, rfl, rfl⟩

mutual

theorem map_tour : ∀ n : Node, (tour n).map Prod.snd = n.preorder
  | ⟨kind, span?, markup, tag, info?, content?, children⟩ => by
    rw [tour, Node.preorder, List.map_cons, map_tourAll]

theorem map_tourAll : ∀ (ns : List Node) (i : Nat), (tourAll i ns).map Prod.snd = Node.preorderAll ns
  | [], _ => rfl
  | n :: ns, i => by
    have hbelow : (below i (tour n)).map Prod.snd = n.preorder := by
      rw [← map_tour n, below, List.map_map]
      rfl
    rw [tourAll, Node.preorderAll, List.map_append, hbelow, map_tourAll]

end

mutual

theorem mem_tour : ∀ (n : Node) {place : List Nat} {m : Node}, (place, m) ∈ tour n ↔ n.at? place = some m
  | ⟨kind, span?, markup, tag, info?, content?, children⟩, place, m => by
    rw [tour, List.mem_cons, mem_tourAll]
    cases place with
    | nil => simp [Node.at?, eq_comm]
    | cons j rest => simp [Node.at?]

theorem mem_tourAll : ∀ (ns : List Node) {i : Nat} {place : List Nat} {m : Node},
    (place, m) ∈ tourAll i ns ↔ ∃ j rest, place = (i + j) :: rest ∧ (ns[j]?.bind fun c => c.at? rest) = some m
  | [], i, place, m => by simp [tourAll]
  | n :: ns, i, place, m => by
    rw [tourAll, List.mem_append, mem_below, mem_tourAll]
    constructor
    · rintro (⟨rest, rfl, h⟩ | ⟨j, rest, rfl, h⟩)
      · exact ⟨0, rest, rfl, (mem_tour n).1 h⟩
      · exact ⟨j + 1, rest, by rw [Nat.add_right_comm, Nat.add_assoc], h⟩
    · rintro ⟨j, rest, rfl, h⟩
      cases j with
      | zero => exact Or.inl ⟨rest, rfl, (mem_tour n).2 h⟩
      | succ j => exact Or.inr ⟨j, rest, by rw [Nat.add_right_comm, Nat.add_assoc], h⟩

end

mutual

theorem tour_inOrder : ∀ n : Node, (tour n).Pairwise fun a b => a.1 < b.1
  | ⟨kind, span?, markup, tag, info?, content?, children⟩ => by
    rw [tour, List.pairwise_cons]
    refine ⟨?_, tourAll_inOrder children 0⟩
    rintro ⟨place, m⟩ h
    obtain ⟨j, rest, rfl, -⟩ := (mem_tourAll children).1 h
    exact List.nil_lt_cons _ _

theorem tourAll_inOrder : ∀ (ns : List Node) (i : Nat), (tourAll i ns).Pairwise fun a b => a.1 < b.1
  | [], _ => .nil
  | n :: ns, i => by
    rw [tourAll, List.pairwise_append]
    refine ⟨?_, tourAll_inOrder ns (i + 1), ?_⟩
    · apply List.pairwise_map.2
      refine (tour_inOrder n).imp ?_
      intro a b h
      exact List.cons_lt_cons_iff.2 (Or.inr ⟨rfl, h⟩)
    · -- the number of the child decides before anything below it
      rintro ⟨place, m⟩ hm ⟨place', m'⟩ hm'
      obtain ⟨rest, rfl, -⟩ := mem_below.1 hm
      obtain ⟨j, rest', rfl, -⟩ := (mem_tourAll ns).1 hm'
      exact List.cons_lt_cons_iff.2 (Or.inl (by omega))

end

/-! ## The stack -/

/-- **The invariant of the stack**: the first node of its traversal comes off, and the others are still to come. -/
theorem preorderAll_pop (stack : List Node) :
    (Node.pop stack).1 = (Node.preorderAll stack).head? ∧
      Node.preorderAll (Node.pop stack).2 = (Node.preorderAll stack).tail := by
  cases stack with
  | nil => exact ⟨rfl, rfl⟩
  | cons n stack =>
    rw [Node.preorderAll, preorder_eq]
    exact ⟨rfl, preorderAll_append n.children stack⟩

/-- the stack after so many nodes were taken -/
def stackAfter : Nat → List Node → List Node
  | 0, stack => stack
  | k + 1, stack => stackAfter k (Node.pop stack).2

theorem preorderAll_stackAfter (k : Nat) (stack : List Node) :
    Node.preorderAll (stackAfter k stack) = (Node.preorderAll stack).drop k := by
  induction k generalizing stack with
  | zero => rfl
  | succ k ih => rw [stackAfter, ih, (preorderAll_pop stack).2, List.drop_tail]

/-- all turns together, by induction on what is on the stack -/
theorem unstack_eq (stack : List Node) : Node.unstack stack = Node.preorderAll stack := by
  induction stack using Node.unstack.induct with
  | case1 stack rest hpop =>
    have hhead := (preorderAll_pop stack).1
    rw [hpop] at hhead
    rw [Node.unstack, hpop, List.head?_eq_none_iff.1 hhead.symm]
  | case2 stack n rest hpop ih =>
    obtain ⟨hhead, htail⟩ := preorderAll_pop stack
    rw [hpop] at hhead htail
    rw [Node.unstack, hpop]
    calc n :: Node.unstack rest
        = n :: (Node.preorderAll stack).tail := by rw [ih, htail]
      _ = Node.preorderAll stack := List.cons_head?_tail hhead.symm

/-! ## The rule -/

/-- how the nodes of a tree come off a stack that begins with its root -/
structure ComesInOrder (root : Node) : Prop where
  /-- as the recursive traversal gives them -/
  preorder : root.descendants = root.preorder
  /-- which is the root, then the traversal of each child in turn -/
  recursive : root.preorder = root :: root.children.flatMap Node.preorder
  /-- the node of each place of the tree, once, in document order -/
  once : ∃ entries : List (List Nat × Node), root.descendants = entries.map Prod.snd ∧
    (∀ place m, (place, m) ∈ entries ↔ root.at? place = some m) ∧ entries.Pairwise fun a b => a.1 < b.1
  /-- one node each time, and none once the last has come -/
  ends : ∀ k, (Node.pop (stackAfter k [root])).1 = root.descendants[k]?

/-- **What comes off the stack is the recursive traversal**, each node once, and after that nothing comes. -/
theorem descendants_exact (root : Node) : ComesInOrder root := by
  have hsingle : Node.preorderAll [root] = root.preorder := List.append_nil root.preorder
  have hdescendants : root.descendants = root.preorder := by rw [Node.descendants, unstack_eq, hsingle]
  refine ⟨hdescendants, ?_, ?_, ?_⟩
  · rw [preorder_eq, preorderAll_eq_flatMap]
  · refine ⟨tour root, ?_, ?_, tour_inOrder root⟩
    · rw [hdescendants, map_tour]
    · intro place m
      exact mem_tour root
  · intro k
    rw [(preorderAll_pop _).1, preorderAll_stackAfter, hsingle, List.head?_drop, hdescendants]

/-- the tokens of a strong text come before the rule behind its container -/
example :
    let inline : Node := { kind := .inline, children := [{ kind := .strongOpen }, { kind := .text }] }
    let document : Node := { kind := .document, children := [inline, { kind := .hr }] }
    document.descendants.map (·.kind) = [.document, .inline, .strongOpen, .text, .hr] := by
  cbv

end MarkVeil.Token
