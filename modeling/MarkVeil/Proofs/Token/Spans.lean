/-
Tokens cover the lines of what they stand for.

For every list of events, tokens stand for footprints and containers of inline tokens cover the lines of these
(`Spans`). Well-nested events make one token for each footprint, in order (`SpansInOrder`): inline events make the
tokens of theirs (`Makes.stands`), and what blocks write adds the tokens of theirs to the stream (`Stream.Adds`). A block
of code or HTML is written when it stops. Main result:
- `parse_spans`: so it is for the tree of all events, of well-nested events, and of every text.
-/
import MarkVeil.Proofs.Token.Footprints
import MarkVeil.Proofs.Token.Nested

namespace MarkVeil.Token

open MarkVeil.Text
open MarkVeil.Markdown (Event Tag WellNested)

/-- tokens in order, without the document, containers of inline tokens, and blocks of code and HTML -/
def elements (ns : List Node) : List Node :=
  (Node.preorderAll ns).filter fun n => n.kind.isElement && !n.kind.isLiteral

/-- tokens cover the lines of what they stand for -/
structure Spans (s : List Char) (es : List (Event × Extent)) (tree : Node) : Prop where
  /-- every token covers at least one line, and none that the text does not have -/
  bounded : ∀ n ∈ tree.preorder, Bounded (LineIndex.ofText s).count n
  /-- a container of inline tokens covers the lines of these and no others -/
  hull : ∀ n ∈ tree.preorder, n.kind = .inline → ∃ span, n.span? = some span ∧ IsHull span n.children
  stands : ∀ n ∈ tree.preorder, n.kind.isElement = true → ∃ f ∈ footprints es, f.Stands s n

/-- besides, there is one token for each footprint, in order -/
structure SpansInOrder (s : List Char) (es : List (Event × Extent)) (tree : Node) : Prop extends Spans s es tree where
  /-- a token that closes a block is on the last line of the one that opens it -/
  blocks : BlockStream tree.children
  /-- blocks of code and HTML are in order, too, but in front of the inline tokens in them -/
  tokens : ∃ ns, List.Forall₂ (Footprint.Stands s) (footprints es) ns ∧
    elements tree.children = ns.filter (!·.kind.isLiteral) ∧
    tree.children.filter (·.kind.isLiteral) = ns.filter (·.kind.isLiteral)

variable {s : List Char} {n o c : Node} {ns ms : List Node} {f g : Footprint} {fs gs : List Footprint} {e : Extent}
  {tag : Tag} {es es' body : List (Event × Extent)} {opened : List (Tag × Extent)} {literal : Bool}

/-! ## All events -/

/-- the document covers all lines of the text -/
theorem bounded_document (s : List Char) (es : List (Event × Extent)) :
    Bounded (LineIndex.ofText s).count (ofEvents (.ofText s) es) := by
  have hcount : 0 < (LineIndex.ofText s).count := Nat.zero_lt_of_lt (LineIndex.lineOf_lt_count s 0)
  have hspan : LineSpan.ofLines 0 (LineIndex.ofText s).count = ⟨0, (LineIndex.ofText s).count⟩ := by
    rw [LineSpan.ofLines, Nat.max_eq_left hcount]
  exact ⟨_, congrArg some hspan, hcount, le_rfl⟩

theorem Gathering.bounded (h : Gathering s fs n) : Bounded (LineIndex.ofText s).count n := by
  obtain ⟨span, hspan, hhull⟩ := h.hull
  exact ⟨span, hspan, hhull.bounds fun m hm => (h.children m hm).bounded⟩

/-- every token below what is written stands for a footprint, or gathers such tokens -/
theorem mem_preorder_cases (h : Told s fs n ∨ Gathering s fs n) :
    ∀ m ∈ n.preorder, (∃ f ∈ fs, f.Stands s m) ∨ Gathering s fs m := by
  rcases h with h | h
  · exact fun m hm => .inl (h m hm)
  · exact forall_mem_preorder.2 ⟨.inr h, fun c hc m hm => .inl (h.children c hc m hm)⟩

/-- **Whatever the events are, tokens cover the lines of what they stand for.** -/
theorem ofEvents_spans (s : List Char) (es : List (Event × Extent)) : Spans s es (ofEvents (.ofText s) es) := by
  obtain ⟨opened, hkeeps⟩ := run_keeps es (keeps_empty s)
  rw [List.nil_append] at hkeeps
  have hbelow : ∀ n ∈ Node.preorderAll (ofEvents (.ofText s) es).children,
      (∃ f ∈ footprints es, f.Stands s n) ∨ Gathering s (footprints es) n := by
    intro n hn
    obtain ⟨m, hm, hn⟩ := mem_preorderAll.1 (mem_preorderAll_reverse.1 hn)
    exact mem_preorder_cases ((keeps_flush hkeeps).blocks m hm) n hn
  refine ⟨?_, ?_, ?_⟩ <;> rw [preorder_eq]
  · refine List.forall_mem_cons.2 ⟨bounded_document s es, fun n hn => ?_⟩
    rcases hbelow n hn with ⟨f, -, hstands⟩ | hgathering
    · exact hstands.bounded
    · exact hgathering.bounded
  · refine List.forall_mem_cons.2 ⟨Kind.noConfusion, fun n hn hk => ?_⟩
    rcases hbelow n hn with ⟨f, -, hstands⟩ | hgathering
    · have hkind := hstands.isElement
      rw [hk] at hkind
      contradiction
    · exact hgathering.hull
  · refine List.forall_mem_cons.2 ⟨fun hk => absurd hk Bool.false_ne_true, fun n hn hk => ?_⟩
    rcases hbelow n hn with hstands | hgathering
    · exact hstands
    · rw [hgathering.kind] at hk
      contradiction

/-! ## Inline events -/

/-- where `literal` says whether they are directly in a block of code or HTML, events have the footprints, and leave the
rest to what follows -/
def Tells (literal : Bool) (es : List (Event × Extent)) (fs : List Footprint) : Prop :=
  ∀ opened rest, isInLiteral opened = literal → footprintsIn opened (es ++ rest) = fs ++ footprintsIn opened rest

theorem tells_nil (literal : Bool) : Tells literal [] [] := fun _ _ _ => rfl

theorem Tells.append (h : Tells literal es fs) (h' : Tells literal es' gs) : Tells literal (es ++ es') (fs ++ gs) := by
  intro opened rest hopened
  rw [List.append_assoc, h _ _ hopened, h' _ _ hopened, List.append_assoc]

theorem tells_leaf {x : Event × Extent}
    (h : ∀ opened, isInLiteral opened = literal → footprint? opened x = some f ∧ openAfter opened x = opened) :
    Tells literal [x] [f] := by
  intro opened rest hopened
  obtain ⟨hf, hafter⟩ := h opened hopened
  rw [List.singleton_append, footprintsIn, hf, hafter]
  rfl

/-- the footprints of an element are around those inside it -/
theorem tells_around {e' : Extent} {inner : Bool} {f? g? : Option Footprint} (h : Tells inner body fs)
    (htag : isLiteralTag tag = inner) (hf : openingFootprint? e tag = f?) (hg : closingFootprint? e tag = g?)
    (literal : Bool) :
    Tells literal ((.start tag, e) :: (body ++ [(.stop, e')])) (f?.toList ++ (fs ++ g?.toList)) := by
  subst htag hf hg
  intro opened rest _
  rw [List.cons_append, List.append_assoc, footprintsIn, openAfter, h _ _ rfl, List.singleton_append, footprintsIn,
    List.append_assoc, List.append_assoc]
  rfl

theorem tells_ignored {e' : Extent} (h : Tells false body fs) (literal : Bool) :
    Tells literal ((.start .other, e) :: (body ++ [(.stop, e')])) fs := by
  have haround : Tells literal ((.start .other, e) :: (body ++ [(.stop, e')])) _ := tells_around h rfl rfl rfl literal
  rw [openingFootprint?, closingFootprint?, Option.toList_none, List.nil_append, List.append_nil] at haround
  exact haround

/-- tokens around others stand for what is around the others' footprints -/
theorem stands_pair (ho : f.Stands s o) (hns : List.Forall₂ (Footprint.Stands s) fs ns) (hc : g.Stands s c) :
    List.Forall₂ (Footprint.Stands s) (f :: (fs ++ [g])) (o :: (ns ++ [c])) :=
  .cons ho (List.rel_append hns (.cons hc .nil))

theorem element_stands {e' : Extent} (h : inlineTokens? (.ofText s) e tag = some (o, c))
    (hbody : Tells false body fs) (hstands : List.Forall₂ (Footprint.Stands s) fs (Node.preorderAll ns)) :
    ∃ gs, (∀ literal, Tells literal ((.start tag, e) :: (body ++ [(.stop, e')])) gs) ∧
      List.Forall₂ (Footprint.Stands s) gs (Node.preorderAll (o :: (ns ++ [c]))) := by
  obtain ⟨f, g, hf, hg, hopen, hclose, ho, hc, -, htag⟩ := stands_inline h
  refine ⟨_, tells_around hbody htag hf hg, ?_⟩
  rw [preorderAll_pair ho hc]
  exact stands_pair hopen hstands hclose

/-- the tokens of a description stand behind their image -/
theorem image_stands {e' : Extent} (hbody : Tells false body fs)
    (hstands : List.Forall₂ (Footprint.Stands s) fs (Node.preorderAll ns)) :
    ∃ gs, (∀ literal, Tells literal ((.start .image, e) :: (body ++ [(.stop, e')])) gs) ∧
      List.Forall₂ (Footprint.Stands s) gs (Node.preorderAll [imageToken (.ofText s) e ns]) := by
  refine ⟨_, tells_around hbody rfl rfl rfl, ?_⟩
  rw [closingFootprint?, Option.toList_none, List.append_nil, Node.preorderAll, preorder_eq, Node.preorderAll,
    List.append_nil]
  exact .cons (Footprint.stands_whole rfl rfl (by decide)) hstands

theorem leaf_stands {x : Event × Extent} (h : leafToken? (.ofText s) x = some n) :
    ∃ fs, (∀ literal, literalText? (.ofText s) x = none ∨ literal = false → Tells literal [x] fs) ∧
      List.Forall₂ (Footprint.Stands s) fs (Node.preorderAll [n]) := by
  obtain ⟨f, hstands, hchildren, hleaf⟩ := stands_leaf h
  refine ⟨[f], fun literal hx => tells_leaf fun opened hopened => hleaf opened (hopened ▸ hx), ?_⟩
  rw [preorderAll_leaf hchildren]
  exact .cons hstands .nil

/-- **Inline events make a token for each of their footprints.** -/
theorem Makes.stands (h : Makes (.ofText s) es ns) :
    ∃ fs, Tells false es fs ∧ List.Forall₂ (Footprint.Stands s) fs (Node.preorderAll ns) := by
  induction h with
  | nil => exact ⟨[], tells_nil false, .nil⟩
  | append _ _ ihFirst ihRest =>
    obtain ⟨fs, hfs, hfirst⟩ := ihFirst
    obtain ⟨gs, hgs, hrest⟩ := ihRest
    refine ⟨fs ++ gs, hfs.append hgs, ?_⟩
    rw [preorderAll_append]
    exact List.rel_append hfirst hrest
  | @leaf x n h =>
    obtain ⟨fs, hfs, hstands⟩ := leaf_stands h
    exact ⟨fs, hfs false (.inr rfl), hstands⟩
  | silent e => exact ⟨[], fun _ _ _ => rfl, .nil⟩
  | element h _ ih =>
    obtain ⟨fs, hfs, hstands⟩ := ih
    obtain ⟨gs, hgs, hstands⟩ := element_stands h hfs hstands
    exact ⟨gs, hgs false, hstands⟩
  | image _ ih =>
    obtain ⟨fs, hfs, hstands⟩ := ih
    obtain ⟨gs, hgs, hstands⟩ := image_stands hfs hstands
    exact ⟨gs, hgs false, hstands⟩
  | ignored _ ih =>
    obtain ⟨fs, hfs, hstands⟩ := ih
    exact ⟨fs, tells_ignored hfs false, hstands⟩

theorem Solid.stands (h : Solid (.ofText s) es ns) :
    ∃ fs, (∀ literal, Tells literal es fs) ∧ List.Forall₂ (Footprint.Stands s) fs (Node.preorderAll ns) := by
  cases h with
  | leaf h hx =>
    obtain ⟨fs, hfs, hstands⟩ := leaf_stands h
    exact ⟨fs, fun literal => hfs literal (.inl hx), hstands⟩
  | silent e => exact ⟨[], fun _ _ _ _ => rfl, .nil⟩
  | element h inside =>
    obtain ⟨fs, hfs, hstands⟩ := inside.stands
    exact element_stands h hfs hstands
  | image inside =>
    obtain ⟨fs, hfs, hstands⟩ := inside.stands
    exact image_stands hfs hstands

/-! ## Events of blocks -/

theorem Kind.isInline_of_close {k l : Kind} (h : k.inlineClose? = some l) : k.isInline = true ∧ l.isInline = true := by
  cases k <;> simp only [Kind.inlineClose?, Option.some.injEq, reduceCtorEq] at h <;> subst h <;> exact ⟨rfl, rfl⟩

theorem Kind.isInline_of_leaf {k : Kind} (h : k.isInlineLeaf = true) : k.isInline = true := by
  cases k <;> first | rfl | cases h

theorem InlineStream.isInline (h : InlineStream ns) : ∀ n ∈ Node.preorderAll ns, n.kind.isInline = true := by
  induction h with
  | nil => exact List.forall_mem_nil _
  | leaf kind children _ ih =>
    rw [preorderAll_leaf children]
    exact List.forall_mem_cons.2 ⟨Kind.isInline_of_leaf kind, ih⟩
  | image kind _ _ ihChildren ih =>
    rw [Node.preorderAll, preorder_eq]
    exact List.forall_mem_append.2 ⟨List.forall_mem_cons.2 ⟨kind ▸ rfl, ihChildren⟩, ih⟩
  | element kind ends _ _ ihInside ih =>
    obtain ⟨ho, hc⟩ := Kind.isInline_of_close kind
    rw [preorderAll_leaf ends.opening, preorderAll_append, preorderAll_leaf ends.closing]
    exact List.forall_mem_cons.2 ⟨ho, List.forall_mem_append.2 ⟨ihInside, List.forall_mem_cons.2 ⟨hc, ih⟩⟩⟩

/-- inline tokens are elements, and none is a block of code or HTML -/
theorem filter_inline (h : ∀ n ∈ ns, n.kind.isInline = true) :
    ns.filter (fun n => n.kind.isElement && !n.kind.isLiteral) = ns ∧ ns.filter (!·.kind.isLiteral) = ns ∧
      ns.filter (·.kind.isLiteral) = [] := by
  have hkind : ∀ k : Kind, k.isInline = true → k.isElement = true ∧ k.isLiteral = false := by
    intro k hk
    cases k <;> first | exact ⟨rfl, rfl⟩ | cases hk
  refine ⟨List.filter_eq_self.2 fun n hn => ?_, List.filter_eq_self.2 fun n hn => ?_,
    List.filter_eq_nil_iff.2 fun n hn => ?_⟩ <;>
    simp [hkind n.kind (h n hn)]

theorem elements_append (ns ms : List Node) : elements (ns ++ ms) = elements ns ++ elements ms := by
  rw [elements, preorderAll_append, List.filter_append]
  rfl

/-- what is gathered is not an element itself -/
theorem elements_gathering (span? : Option LineSpan) (ns : List Node) :
    elements [{ kind := .inline, span? := span?, children := ns }] = elements ns := by
  rw [elements, Node.preorderAll, preorder_eq, Node.preorderAll, List.append_nil]
  rfl

theorem elements_leaf (hn : n.children = []) (h : n.kind.isElement = true) :
    elements [n] = [n].filter (!·.kind.isLiteral) := by
  rw [elements, preorderAll_leaf hn, Node.preorderAll, List.filter_singleton, List.filter_singleton, h, Bool.true_and]

namespace Stream

/-- tokens written so far, and those pending behind them -/
def tokens (st : Stream) : List Node := elements (st.blocks.reverse ++ st.inlines.reverse)

/-- blocks of code and HTML written so far -/
def literals (st : Stream) : List Node := st.blocks.reverse.filter (·.kind.isLiteral)

/-- a writer adds a token for each footprint -/
def Adds (s : List Char) (fs : List Footprint) (write : Stream → Stream) : Prop :=
  ∀ st : Stream, ∃ ns, List.Forall₂ (Footprint.Stands s) fs ns ∧
    (write st).tokens = st.tokens ++ ns.filter (!·.kind.isLiteral) ∧
    (write st).literals = st.literals ++ ns.filter (·.kind.isLiteral)

variable {write write' : Stream → Stream}

theorem adds_id : Adds s [] id := fun _ => ⟨[], .nil, (List.append_nil _).symm, (List.append_nil _).symm⟩

/-- one writer after another -/
theorem Adds.comp (h : Adds s fs write) (h' : Adds s gs write') : Adds s (fs ++ gs) (write' ∘ write) := by
  intro st
  obtain ⟨ns, hstands, htokens, hliterals⟩ := h st
  obtain ⟨ms, hstands', htokens', hliterals'⟩ := h' (write st)
  refine ⟨ns ++ ms, List.rel_append hstands hstands', ?_, ?_⟩
  · rw [Function.comp_apply, htokens', htokens, List.filter_append, List.append_assoc]
  · rw [Function.comp_apply, hliterals', hliterals, List.filter_append, List.append_assoc]

theorem tokens_flush (st : Stream) : st.flush.tokens = st.tokens := by
  unfold flush
  split
  · rfl
  · rw [tokens, tokens, List.reverse_cons, List.reverse_nil, List.append_nil, elements_append, elements_gathering,
      elements_append]

theorem literals_flush (st : Stream) : st.flush.literals = st.literals := by
  unfold flush
  split
  · rfl
  · rw [literals, literals, List.reverse_cons, List.filter_append]
    exact List.append_nil _

theorem adds_flush : Adds s [] flush := by
  intro st
  refine ⟨[], .nil, ?_, ?_⟩
  · rw [tokens_flush, List.filter_nil, List.append_nil]
  · rw [literals_flush, List.filter_nil, List.append_nil]

theorem adds_inline (hns : InlineStream ns) (hstands : List.Forall₂ (Footprint.Stands s) fs (Node.preorderAll ns)) :
    Adds s fs (inline ns) := by
  obtain ⟨helements, hothers, hliterals⟩ := filter_inline hns.isInline
  intro st
  refine ⟨Node.preorderAll ns, hstands, ?_, ?_⟩
  · rw [tokens, tokens, inline, List.reverse_append, List.reverse_reverse, ← List.append_assoc, elements_append _ ns,
      hothers, elements, elements, helements]
  · rw [hliterals, List.append_nil]
    rfl

theorem literals_append (n : Node) (st : Stream) :
    (st.append n).literals = st.literals ++ [n].filter (·.kind.isLiteral) := by
  rw [literals, literals, append, List.reverse_cons, List.filter_append]

/-- a block token that stands alone -/
theorem adds_block (hn : n.children = []) (hstands : f.Stands s n) : Adds s [f] (block n) := by
  intro st
  refine ⟨[n], .cons hstands .nil, ?_, ?_⟩
  · -- nothing is pending any more
    have hflushed := st.tokens_flush
    rw [tokens, inlines_flush, List.reverse_nil, List.append_nil] at hflushed
    rw [tokens, block, inlines_flush, List.reverse_nil, List.append_nil, List.reverse_cons, elements_append, hflushed,
      elements_leaf hn hstands.isElement]
  · rw [← st.literals_flush]
    exact st.flush.literals_append n

/-- a block of code or HTML is written in front of what is pending -/
theorem adds_append (hn : n.children = []) (hstands : f.Stands s n) (hliteral : n.kind.isLiteral = true) :
    Adds s [f] (append n) := by
  have hself : elements [n] = [] := by
    rw [elements_leaf hn hstands.isElement, List.filter_singleton, hliteral]
    rfl
  intro st
  refine ⟨[n], .cons hstands .nil, ?_, st.literals_append n⟩
  rw [tokens, tokens, append, List.reverse_cons, elements_append, elements_append, hself, List.append_nil,
    elements_append, List.filter_singleton, hliteral]
  exact (List.append_nil _).symm

end Stream

/-- **What events of blocks write adds a token for each of their footprints.** -/
theorem Writes.adds {write : Bool → Stream → Stream} {note : Option String → Option String}
    (h : Writes (.ofText s) es write note) :
    ∃ fs : Bool → List Footprint,
      ∀ literal, Tells literal es (fs literal) ∧ Stream.Adds s (fs literal) (write literal) := by
  induction h with
  | nil => exact ⟨fun _ => [], fun literal => ⟨tells_nil literal, Stream.adds_id⟩⟩
  | append _ _ ihFirst ihRest =>
    obtain ⟨fs, hfirst⟩ := ihFirst
    obtain ⟨gs, hrest⟩ := ihRest
    exact ⟨fun literal => fs literal ++ gs literal, fun literal =>
      ⟨(hfirst literal).1.append (hrest literal).1, (hfirst literal).2.comp (hrest literal).2⟩⟩
  | @text x t n h =>
    obtain ⟨-, hleaf, -⟩ := step_text h
    obtain ⟨fs, hfs, hstands⟩ := (Makes.leaf hleaf).stands
    refine ⟨fun literal => if literal then [] else fs, fun literal => ?_⟩
    cases literal with
    | false => exact ⟨hfs, Stream.adds_inline (Makes.leaf hleaf).nested hstands⟩
    | true =>
      refine ⟨fun opened rest hopened => ?_, Stream.adds_id⟩
      obtain ⟨hnothing, hafter⟩ := footprint?_literal h hopened
      rw [List.singleton_append, footprintsIn, hnothing, hafter]
      rfl
  | inline h =>
    obtain ⟨fs, hfs, hstands⟩ := h.stands
    exact ⟨fun _ => fs, fun literal => ⟨hfs literal, Stream.adds_inline h.makes.nested hstands⟩⟩
  | rule e =>
    exact ⟨fun _ => [.whole .hr e rfl], fun _ => ⟨tells_leaf fun _ _ => ⟨rfl, rfl⟩,
      Stream.adds_block rfl (Footprint.stands_whole rfl rfl (by decide))⟩⟩
  | @block tag e e' opening closing name markup body write note h _ ih =>
    obtain ⟨fs, hbody⟩ := ih
    obtain ⟨f, g, hf, hg, hopen, hclose, -, htag⟩ := stands_block h (String.ofList markup)
    exact ⟨fun _ => f :: (fs false ++ [g]), fun literal => ⟨tells_around (hbody false).1 htag hf hg literal,
      (Stream.adds_block rfl hopen).comp ((hbody false).2.comp (Stream.adds_block rfl hclose))⟩⟩
  | @literal tag e e' n body write note h _ ih =>
    obtain ⟨fs, hbody⟩ := ih
    obtain ⟨g, hf, hg, hstands, hliteral, htext, hchildren, htag⟩ := stands_literal h
    have hnoted := Stream.adds_append (n := { n with content? := note n.content? }) hchildren
      (hstands.change htext rfl rfl) hliteral
    exact ⟨fun _ => fs true ++ [g], fun literal => ⟨tells_around (hbody true).1 htag hf hg literal,
      (Stream.adds_flush.comp (hbody true).2).comp hnoted⟩⟩
  | ignored _ ih =>
    obtain ⟨fs, hbody⟩ := ih
    exact ⟨fun _ => fs false, fun literal => ⟨tells_ignored (hbody false).1 literal, (hbody false).2⟩⟩

/-! ## Trees -/

/-- **Well-nested events make one token for each footprint, in order.** -/
theorem ofEvents_inOrder (s : List Char) (h : WellNested es) : SpansInOrder s es (ofEvents (.ofText s) es) := by
  obtain ⟨write, note, hwrites⟩ := exists_writes (.ofText s) h
  obtain ⟨fs, hadds⟩ := hwrites.adds
  obtain ⟨htells, hadds⟩ := hadds false
  have hfootprints : footprints es = fs false := by
    have hnil := htells [] [] rfl
    rwa [footprintsIn, List.append_nil, List.append_nil] at hnil
  obtain ⟨ns, hstands, htokens, hliterals⟩ := (hadds.comp Stream.adds_flush) ⟨[], []⟩
  refine ⟨ofEvents_spans s es, ofEvents_nested h, ns, ?_, ?_, ?_⟩
  · rw [hfootprints, ← List.append_nil (fs false)]
    exact hstands
  · -- nothing is pending in the end
    rw [Function.comp_apply, Stream.tokens, Stream.inlines_flush, List.reverse_nil, List.append_nil] at htokens
    rw [hwrites.ofEvents]
    exact htokens
  · rw [hwrites.ofEvents]
    exact hliterals

/-- **Every token covers the lines of what it stands for**, in the tree of all events, and in order in the tree of
well-nested ones. So it is in the tree of every text. -/
theorem parse_spans (s : List Char) :
    (∀ es, Spans s es (ofEvents (.ofText s) es) ∧ (WellNested es → SpansInOrder s es (ofEvents (.ofText s) es))) ∧
      SpansInOrder s (Markdown.Document.events s) (parse s) :=
  ⟨fun es => ⟨ofEvents_spans s es, ofEvents_inOrder s⟩, ofEvents_inOrder s (Markdown.events_wellNested s)⟩

/-- an image over two lines, which is written when it stops, and an emphasis that ends on the third -/
theorem parse_spans_image :
    let s := "![a\nb](c) *d\ne*".toList
    let es : List (Event × Extent) :=
      [(.start .paragraph, ⟨0, 15⟩), (.start .image, ⟨0, 9⟩), (.text ['a'], ⟨2, 3⟩), (.softBreak, ⟨3, 4⟩),
        (.text ['b'], ⟨4, 5⟩), (.stop, ⟨0, 9⟩), (.text [' '], ⟨9, 10⟩), (.start (.stress .emphasis), ⟨10, 15⟩),
        (.text ['d'], ⟨11, 12⟩), (.softBreak, ⟨12, 13⟩), (.text ['e'], ⟨13, 14⟩), (.stop, ⟨10, 15⟩), (.stop, ⟨0, 15⟩)]
    WellNested es ∧ SpansInOrder s es (ofEvents (.ofText s) es) ∧
      ((ofEvents (.ofText s) es).children.flatMap Node.preorder).map (fun n => (n.kind, n.span?)) =
        [(.paragraphOpen, some ⟨0, 3⟩), (.inline, some ⟨0, 3⟩), (.image, some ⟨0, 2⟩), (.text, some ⟨0, 1⟩),
          (.softBreak, some ⟨0, 1⟩), (.text, some ⟨1, 2⟩), (.text, some ⟨1, 2⟩), (.emOpen, some ⟨1, 2⟩),
          (.text, some ⟨1, 2⟩), (.softBreak, some ⟨1, 2⟩), (.text, some ⟨2, 3⟩), (.emClose, some ⟨2, 3⟩),
          (.paragraphClose, some ⟨2, 3⟩)] := by
  intro s es
  have hnested : WellNested es := by decide
  exact ⟨hnested, ((parse_spans s).1 es).2 hnested, by decide +kernel⟩

end MarkVeil.Token
