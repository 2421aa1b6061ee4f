/-
A walk goes turn by turn.

In a list of tokens, each block token takes a turn of its own, and inline tokens that stand next to one another take one
turn together: one scan reads them, and it ends with them. So a construct that is still open at the end of a block is
not seen by the next. `walkFor` spells the turns out, with a budget instead of the structure of the tree: a turn that
took no token would spend it all. Main result:
- `walk_turn_by_turn`: lists give what their parts give, block tokens what their children give, runs of inline tokens
  what one container of them gives; and the turns take every token once and come to an end.
-/
import MarkVeil.Proofs.Decoration.Leaves

namespace MarkVeil.Decoration

open MarkVeil.Text
open MarkVeil.Token (Node)

variable {src : Source} {n : Node} {a b ns : List Node} {budget : Nat}

/-! ## Between blocks -/

theorem walkAll_cons_block (hn : n.kind.isInline = false) (src : Source) (run ns : List Node) :
    walkAll src run (n :: ns) = bareRun src run.reverse ++ (walk src n ++ walkAll src [] ns) := by
  rw [walkAll, if_neg (by simp [hn])]

theorem walkAll_cons_inline (hn : n.kind.isInline = true) (src : Source) (run ns : List Node) :
    walkAll src run (n :: ns) = walkAll src (n :: run) ns := by
  rw [walkAll, if_pos hn]

theorem walkAll_block (hn : n.kind.isInline = false) (src : Source) : walkAll src [] [n] = walk src n := by
  rw [walkAll_cons_block hn]
  exact List.append_nil (walk src n)

/-- before a block token, and at the end, nothing waits -/
theorem walkAll_break (hb : ∀ n ∈ b.head?, n.kind.isInline = false) (src : Source) (run a : List Node) :
    walkAll src run (a ++ b) = walkAll src run a ++ walkAll src [] b := by
  induction a generalizing run with
  | nil =>
    cases b with
    | nil => exact (List.append_nil _).symm
    | cons n ns =>
      have hn : n.kind.isInline = false := hb n rfl
      rw [List.nil_append, walkAll_cons_block hn, walkAll_cons_block hn]
      rfl
  | cons m a ih =>
    cases hm : m.kind.isInline with
    | true => rw [List.cons_append, walkAll_cons_inline hm, walkAll_cons_inline hm, ih]
    | false =>
      rw [List.cons_append, walkAll_cons_block hm, walkAll_cons_block hm, ih, List.append_assoc, List.append_assoc]

/-- the last token of a list and the first of another are not both inline tokens -/
def Breaks (a b : List Node) : Prop :=
  ∀ m ∈ a.getLast?, ∀ n ∈ b.head?, ¬ (m.kind.isInline = true ∧ n.kind.isInline = true)

/-- behind a block token nothing waits either -/
theorem walkAll_behind (hn : n.kind.isInline = false) (src : Source) (a b : List Node) :
    walkAll src [] (a ++ n :: b) = walkAll src [] (a ++ [n]) ++ walkAll src [] b := by
  have hbreak : ∀ ns, ∀ m ∈ (n :: ns).head?, m.kind.isInline = false := by
    intro ns m hm
    obtain rfl : n = m := by simpa using hm
    exact hn
  calc walkAll src [] (a ++ n :: b)
      = walkAll src [] a ++ (walk src n ++ walkAll src [] b) := by
        rw [walkAll_break (hbreak b), walkAll_cons_block hn]
        rfl
    _ = walkAll src [] a ++ walkAll src [] [n] ++ walkAll src [] b := by rw [walkAll_block hn, List.append_assoc]
    _ = walkAll src [] (a ++ [n]) ++ walkAll src [] b := by rw [walkAll_break (hbreak [])]

/-- **Lists that split no run give what each gives.** -/
theorem walkAll_append (h : Breaks a b) (src : Source) :
    walkAll src [] (a ++ b) = walkAll src [] a ++ walkAll src [] b := by
  by_cases hb : ∀ n ∈ b.head?, n.kind.isInline = false
  · exact walkAll_break hb src [] a
  · rcases List.eq_nil_or_concat a with rfl | ⟨a, m, rfl⟩
    · rfl
    · rw [List.concat_eq_append] at h ⊢
      have hm : m.kind.isInline = false := by
        rw [← Bool.not_eq_true]
        intro hm
        apply hb
        intro n hn
        rw [← Bool.not_eq_true]
        intro hinline
        exact h m (by simp) n hn ⟨hm, hinline⟩
      rw [List.append_assoc]
      exact walkAll_behind hm src a b

/-- inline tokens wait for the end of their run -/
theorem walkAll_run (hns : ∀ n ∈ ns, n.kind.isInline = true) (src : Source) (run : List Node) :
    walkAll src run ns = bareRun src (run.reverse ++ ns) := by
  induction ns generalizing run with
  | nil => rw [walkAll, List.append_nil]
  | cons n ns ih =>
    obtain ⟨hn, hns⟩ := List.forall_mem_cons.1 hns
    rw [walkAll_cons_inline hn, ih hns, List.reverse_cons, List.append_assoc, List.singleton_append]

/-- a container of inline tokens gives what a scan of them gives that begins on its first line -/
theorem walk_container (hn : n.kind = .inline) (src : Source) :
    walk src n = (Scan.start src n.span?).run src n.children := by
  obtain ⟨kind, span?, markup, tag, info?, content?, children⟩ := n
  obtain rfl : kind = .inline := hn
  rfl

/-- on the lines of the first token it is what they give as a run -/
theorem walk_inline (hn : n.kind = .inline) (hspan : n.span? = n.children.head?.bind (·.span?)) :
    walk src n = bareRun src n.children := by
  rw [walk_container hn, hspan]
  cases n.children <;> rfl

/-! ## Turns -/

/-- how the walk takes a token -/
inductive Arm where
  | heading
  | fence
  | inline
  /-- by its children -/
  | children
  /-- with the inline tokens that follow it -/
  | run
  deriving DecidableEq

/-- how the walk takes each kind of token -/
def armOf : Token.Kind → Arm
  | .headingOpen => .heading
  | .fence => .fence
  | .inline => .inline
  | .document | .paragraphOpen | .paragraphClose | .headingClose | .blockquoteOpen | .blockquoteClose
  | .bulletListOpen | .bulletListClose | .orderedListOpen | .orderedListClose | .listItemOpen | .listItemClose
  | .codeBlock | .htmlBlock | .hr => .children
  | .text | .softBreak | .hardBreak | .strongOpen | .strongClose | .emOpen | .emClose | .strikeOpen | .strikeClose
  | .codeInline | .linkOpen | .linkClose | .image | .htmlInline => .run

/-- a turn of the walk: the tokens that it takes and the ranges that it gives -/
structure Turn where
  tokens : List Node
  ranges : List Range

/-- the turn of the inline tokens at the front of a list that `n` begins -/
def Turn.ofRun (src : Source) (n : Node) (ns : List Node) : Turn :=
  let run := (n :: ns).takeWhile (·.kind.isInline)
  ⟨run, (Scan.start src n.span?).run src run⟩

/-- the turns of a walk that may still take `budget` of them, on its level or below -/
def walkFor (src : Source) : (budget : Nat) → List Node → Option (List Turn)
  | 0, _ => none
  | _ + 1, [] => some []
  | budget + 1, n :: ns =>
    match armOf n.kind with
    | .heading => (walkFor src budget ns).map (⟨[n], heading src n⟩ :: ·)
    | .fence => (walkFor src budget ns).map (⟨[n], fence src n⟩ :: ·)
    | .inline => (walkFor src budget ns).map (⟨[n], (Scan.start src n.span?).run src n.children⟩ :: ·)
    | .children =>
      (walkFor src budget n.children).bind fun below =>
        (walkFor src budget ns).map (⟨[n], below.flatMap Turn.ranges⟩ :: ·)
    | .run => (walkFor src budget ((n :: ns).dropWhile (·.kind.isInline))).map (Turn.ofRun src n ns :: ·)

/-- what a walk with a budget did with a list of tokens -/
structure Handles (src : Source) (turns : List Turn) (ns : List Node) : Prop where
  /-- every token is in one turn, in order -/
  once : turns.flatMap Turn.tokens = ns
  /-- no turn is idle -/
  nonempty : ∀ t ∈ turns, t.tokens ≠ []
  /-- a turn takes one block token, or inline tokens only -/
  kinds : ∀ t ∈ turns, (∃ n, t.tokens = [n] ∧ n.kind.isInline = false) ∨ ∀ n ∈ t.tokens, n.kind.isInline = true
  /-- no run goes on in the next turn -/
  whole : turns.IsChain fun t u => Breaks t.tokens u.tokens
  /-- a turn gives what its tokens give by themselves -/
  alone : ∀ t ∈ turns, t.ranges = walkAll src [] t.tokens
  ranges : turns.flatMap Turn.ranges = walkAll src [] ns

theorem armOf_run (k : Token.Kind) : armOf k = .run ↔ k.isInline = true := by cases k <;> decide

theorem armOf_silent {k : Token.Kind} (h : Silent k) : armOf k = .children := by
  obtain ⟨hinline, hheading, hfence, hcontainer⟩ := h
  cases k <;> first | rfl | contradiction

theorem sizeAll_dropWhile (p : Node → Bool) (ns : List Node) : Node.sizeAll (ns.dropWhile p) ≤ Node.sizeAll ns := by
  induction ns with
  | nil => exact Nat.le_refl _
  | cons n ns ih =>
    rw [List.dropWhile_cons]
    split_ifs
    · rw [Node.sizeAll]
      omega
    · exact Nat.le_refl _

/-- a block token gives what its arm gives -/
theorem walk_eq (src : Source) (n : Node) :
    walk src n = match armOf n.kind with
      | .heading => heading src n
      | .fence => fence src n
      | .inline => (Scan.start src n.span?).run src n.children
      | _ => walkAll src [] n.children := by
  obtain ⟨kind, span?, markup, tag, info?, content?, children⟩ := n
  cases kind <;> rfl

namespace Handles

variable {t : Turn} {ts : List Turn}

theorem nil (src : Source) : Handles src [] [] := ⟨rfl, by simp, by simp, .nil, by simp, rfl⟩

theorem cons (ht : t.tokens ≠ [])
    (hkind : (∃ n, t.tokens = [n] ∧ n.kind.isInline = false) ∨ ∀ n ∈ t.tokens, n.kind.isInline = true)
    (halone : t.ranges = walkAll src [] t.tokens) (hbreaks : Breaks t.tokens ns) (h : Handles src ts ns) :
    Handles src (t :: ts) (t.tokens ++ ns) := by
  refine ⟨?_, ?_, ?_, ?_, ?_, ?_⟩
  · rw [List.flatMap_cons, h.once]
  · exact List.forall_mem_cons.2 ⟨ht, h.nonempty⟩
  · exact List.forall_mem_cons.2 ⟨hkind, h.kinds⟩
  · apply List.isChain_cons.2
    refine ⟨?_, h.whole⟩
    intro u hu m hm k hk
    -- the tokens behind `t` begin with those of the next turn
    obtain ⟨us, rfl⟩ := List.head?_eq_some_iff.1 hu
    apply hbreaks m hm k
    rw [← h.once, List.flatMap_cons, List.head?_append_of_ne_nil _ (h.nonempty u List.mem_cons_self)]
    exact hk
  · exact List.forall_mem_cons.2 ⟨halone, h.alone⟩
  · rw [List.flatMap_cons, h.ranges, halone, walkAll_append hbreaks]

/-- a turn of a block token -/
theorem block (hn : n.kind.isInline = false) (h : Handles src ts ns) :
    Handles src (⟨[n], walk src n⟩ :: ts) (n :: ns) := by
  refine h.cons (t := ⟨[n], walk src n⟩) (List.cons_ne_nil n []) (Or.inl ⟨n, rfl, hn⟩) (walkAll_block hn src).symm ?_
  intro m hm k _
  obtain rfl : n = m := by simpa using hm
  simp [hn]

/-- a turn of a run, which takes all inline tokens that it finds -/
theorem run (hn : n.kind.isInline = true) (h : Handles src ts ((n :: ns).dropWhile (·.kind.isInline))) :
    Handles src (Turn.ofRun src n ns :: ts) (n :: ns) := by
  have htokens : (Turn.ofRun src n ns).tokens = n :: ns.takeWhile (·.kind.isInline) := by
    rw [Turn.ofRun, List.takeWhile_cons, if_pos hn]
  have hinline : ∀ m ∈ (Turn.ofRun src n ns).tokens, m.kind.isInline = true := by
    intro m hm
    exact List.all_eq_true.1 List.all_takeWhile m hm
  have hne : (Turn.ofRun src n ns).tokens ≠ [] := by
    rw [htokens]
    exact List.cons_ne_nil n _
  have halone : (Turn.ofRun src n ns).ranges = walkAll src [] (Turn.ofRun src n ns).tokens := by
    calc (Turn.ofRun src n ns).ranges
        = (Scan.start src n.span?).run src (Turn.ofRun src n ns).tokens := rfl
      _ = bareRun src (Turn.ofRun src n ns).tokens := by rw [htokens, bareRun]
      _ = walkAll src [] (Turn.ofRun src n ns).tokens := (walkAll_run hinline src []).symm
  have hbreaks : Breaks (Turn.ofRun src n ns).tokens ((n :: ns).dropWhile (·.kind.isInline)) := by
    intro m _ k hk
    have := List.head?_dropWhile_not (·.kind.isInline) (n :: ns)
    rw [hk] at this
    simp [this]
  have hlist : (Turn.ofRun src n ns).tokens ++ (n :: ns).dropWhile (·.kind.isInline) = n :: ns :=
    List.takeWhile_append_dropWhile
  rw [← hlist]
  exact h.cons hne (Or.inr hinline) halone hbreaks

end Handles

/-- **The walk comes to an end**: a budget for every token of the tree is enough. -/
theorem walkFor_handles (h : Node.sizeAll ns < budget) (src : Source) :
    ∃ turns, walkFor src budget ns = some turns ∧ Handles src turns ns := by
  induction budget generalizing ns with
  | zero => omega
  | succ budget ih =>
    cases ns with
    | nil => exact ⟨[], rfl, Handles.nil src⟩
    | cons n ns =>
      have hsize := n.size_eq
      rw [Node.sizeAll] at h
      obtain ⟨ts, hts, hrest⟩ := ih (show Node.sizeAll ns < budget by omega)
      obtain ⟨below, hbelow, hchildren⟩ := ih (show Node.sizeAll n.children < budget by omega)
      have hwalk := walk_eq src n
      have hinline := armOf_run n.kind
      cases harm : armOf n.kind with
      | run =>
        have hn : n.kind.isInline = true := hinline.1 harm
        have hdrop : Node.sizeAll ((n :: ns).dropWhile (·.kind.isInline)) < budget := by
          have := sizeAll_dropWhile (·.kind.isInline) ns
          rw [List.dropWhile_cons, if_pos hn]
          omega
        obtain ⟨ts, hts, hrest⟩ := ih hdrop
        refine ⟨_, ?_, hrest.run hn⟩
        simp only [walkFor, harm, hts, Option.map_some]
      | children =>
        refine ⟨_, ?_, hrest.block (n := n) (by simpa [harm] using hinline)⟩
        rw [hwalk]
        simp only [walkFor, harm, hbelow, Option.bind_some, hts, Option.map_some, hchildren.ranges]
      | _ =>
        refine ⟨_, ?_, hrest.block (n := n) (by simpa [harm] using hinline)⟩
        rw [hwalk]
        simp only [walkFor, harm, hts, Option.map_some]

/-! ## The rule -/

/-- how the tokens of a list go together -/
structure GoesByTurns (src : Source) : Prop where
  /-- lists that split no run give what each gives -/
  append : ∀ a b, Breaks a b → walkAll src [] (a ++ b) = walkAll src [] a ++ walkAll src [] b
  /-- a block token that gives nothing of its own gives what its children give -/
  children : ∀ n, Silent n.kind → walkAll src [] [n] = walkAll src [] n.children
  /-- a run that no inline token touches gives what a container gives that holds its tokens on the lines of the first -/
  run : ∀ a run b n, (∀ m ∈ run, m.kind.isInline = true) → (∀ m ∈ a.getLast?, m.kind.isInline = false) →
    (∀ m ∈ b.head?, m.kind.isInline = false) → n.kind = .inline → n.span? = run.head?.bind (·.span?) →
    n.children = run → walkAll src [] (a ++ (run ++ b)) = walkAll src [] a ++ (walkAll src [] [n] ++ walkAll src [] b)
  /-- the walk comes to an end on every list, and takes each of its tokens in one turn, by itself or with its run -/
  ends : ∀ ns budget, Node.sizeAll ns < budget → ∃ turns, walkFor src budget ns = some turns ∧ Handles src turns ns

/-- **A walk goes turn by turn**, on any tokens. -/
theorem walk_turn_by_turn (src : Source) : GoesByTurns src := by
  refine ⟨?_, ?_, ?_, ?_⟩
  · intro a b h
    exact walkAll_append h src
  · intro n h
    have harm : armOf n.kind = .children := armOf_silent h
    rw [walkAll_block h.1, walk_eq, harm]
  · intro a run b n hrun ha hb hn hspan hchildren
    have hbefore : Breaks a (run ++ b) := by
      intro m hm k _
      simp [ha m hm]
    have hbehind : Breaks run b := by
      intro m _ k hk
      simp [hb k hk]
    have hinline : n.kind.isInline = false := by rw [hn]; rfl
    rw [walkAll_append hbefore, walkAll_append hbehind, walkAll_run hrun, walkAll_block hinline,
      walk_inline hn (by rw [hspan, hchildren]), hchildren]
    rfl
  · intro ns budget h
    exact walkFor_handles h src

/-- in `**a`, a rule and `*b*`, the strong is left open: its run gives its marker, and the em behind the rule is not
inside it -/
theorem walk_turn_by_turn_open :
    let src := Source.ofText "**a\n---\n*b*".toList
    let first := some (LineSpan.line 0)
    let last := some (LineSpan.line 2)
    let strong : Node := ⟨.strongOpen, first, "**", "strong", none, none, []⟩
    let a : Node := ⟨.text, first, "", "", none, some "a", []⟩
    let rule : Node := ⟨.hr, some (LineSpan.line 1), "---", "hr", none, none, []⟩
    let em : Node := ⟨.emOpen, last, "*", "em", none, none, []⟩
    let b : Node := ⟨.text, last, "", "", none, some "b", []⟩
    let em' : Node := ⟨.emClose, last, "*", "em", none, none, []⟩
    walkAll src [] [strong, a, rule, em, b, em'] = [.hide 0 2, .hide 8 9, .styled 9 10 .italic, .hide 10 11] := by
  intro src first last strong a rule em b em'
  let container : Node := ⟨.inline, first, "", "", none, none, [strong, a]⟩
  have hrun := (walk_turn_by_turn src).run [] [strong, a] [rule, em, b, em'] container (by decide) (by decide)
    (by decide) rfl rfl rfl
  rw [List.nil_append, List.cons_append, List.singleton_append] at hrun
  rw [hrun]
  decide

end MarkVeil.Decoration
