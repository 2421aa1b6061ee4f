/-
What the blocks of a document give, leaf by leaf.

Containers give no ranges. Headings and fences give those of their own tokens, and inline elements those of one scan;
paragraphs without tokens of their own, as in the items of a tight list, share a scan with what stands next to them
(`gather`). Main results:
- `collect_ofBlocks`: the ranges of a document are those of its leaves, in order;
- `flatMap_content_leaves`, `fence_mem_leaves`: no inline element and no fence is left out.
-/
import MarkVeil.Decoration.Extract
import MarkVeil.Proofs.Token.BlockEvents

namespace MarkVeil.Decoration

open MarkVeil.Text
open MarkVeil.Token (Node Stream hull ofInline ofInlines spanOf fenceMarkup headingMarker writeBlock writeBlocks ofBlocks
  containerShape)
open MarkVeil.Markdown (Container Inline ReadBlock isBare)

/-- what gives ranges of its own -/
inductive Leaf where
  | heading (extent : Extent) (level : Nat)
  | fence (extent : Extent) (info body : List Char) (closed : Bool)
  /-- inline elements that one scan goes through -/
  | inlines (content : List Inline)

namespace Leaf

def headingToken (src : Source) (e : Extent) (level : Nat) : Node :=
  { kind := .headingOpen, span? := spanOf src e, markup := String.ofList (headingMarker src e level),
    tag := String.ofList ['h', level.digitChar] }

def fenceToken (src : Source) (e : Extent) (info body : List Char) : Node :=
  { kind := .fence, span? := spanOf src e, markup := String.ofList (fenceMarkup src e.start), tag := "code",
    info? := if (trim info).isEmpty then none else some (String.ofList (trim info)),
    content? := if body.isEmpty then none else some (String.ofList body) }

/-- where the scan of inline elements begins -/
def scanOf (src : Source) (content : List Inline) : Scan := Scan.start src (hull (ofInlines src content).reverse)

def ranges (src : Source) : Leaf → List Range
  | .heading e level => Decoration.heading src (headingToken src e level)
  | .fence e info body _ => Decoration.fence src (fenceToken src e info body)
  | .inlines content => (scanOf src content).run src (ofInlines src content)

def content : Leaf → List Inline
  | .inlines content => content
  | _ => []

end Leaf

/-- leaves gathered from blocks, and inline elements that no leaf has yet -/
structure Gathered where
  leaves : List Leaf
  pending : List Inline

namespace Gathered

def flush (g : Gathered) : Gathered :=
  match g.pending with
  | [] => g
  | content => ⟨g.leaves ++ [.inlines content], []⟩

/-- add leaves behind those pending -/
def add (ls : List Leaf) (g : Gathered) : Gathered := ⟨g.flush.leaves ++ ls, []⟩

end Gathered

mutual

/-- gather the leaves of a block -/
def gather (bare : Bool) : ReadBlock → Gathered → Gathered
  | .paragraph _ content, g =>
    if bare then { g with pending := g.pending ++ content } else { g.add [] with pending := content }.add []
  | .heading e level content, g => { g.add [.heading e level] with pending := content }.add []
  | .rule _, g => g.add []
  | .fence e info body closed, g => g.add [.fence e info body closed]
  | .indented _ _, g => g.add []
  | .html _ _, g => g.add []
  | .within _ c blocks, g => (gatherAll (isBare bare c) blocks (g.add [])).add []

def gatherAll (bare : Bool) : List ReadBlock → Gathered → Gathered
  | [], g => g
  | b :: bs, g => gatherAll bare bs (gather bare b g)

end

/-- the leaves of a document -/
def leaves (blocks : List ReadBlock) : List Leaf := (gatherAll false blocks ⟨[], []⟩).flush.leaves

variable {src : Source} {n : Node} {g : Gathered} {st : Stream} {ls : List Leaf}

/-! ## Streams and leaves -/

theorem ofInlines_append (src : Source) (a b : List Inline) :
    ofInlines src (a ++ b) = ofInlines src a ++ ofInlines src b := by
  induction a with
  | nil => rfl
  | cons i a ih => rw [List.cons_append, ofInlines, ofInlines, ih, List.append_assoc]

theorem ofInline_ne_nil (src : Source) (i : Inline) : ofInline src i ≠ [] := by cases i <;> simp [ofInline]

theorem ofInlines_eq_nil {content : List Inline} : ofInlines src content = [] ↔ content = [] := by
  cases content with
  | nil => simp [ofInlines]
  | cons i is => simp [ofInlines, ofInline_ne_nil]

/-- a block token that gives nothing of its own -/
def Silent (k : Token.Kind) : Prop := k.isInline = false ∧ k ≠ .headingOpen ∧ k ≠ .fence ∧ k ≠ .inline

instance (k : Token.Kind) : Decidable (Silent k) := inferInstanceAs (Decidable (_ ∧ _))

theorem walk_silent {k : Token.Kind} (hk : Silent k) {span? : Option LineSpan} {markup tag : String}
    {info? content? : Option String} : walk src ⟨k, span?, markup, tag, info?, content?, []⟩ = [] := by
  obtain ⟨-, hheading, hfence, hinline⟩ := hk
  cases k <;> first | rfl | contradiction

/-- block tokens in a row give what each of them gives -/
theorem walkAll_blocks {ns : List Node} (h : ∀ n ∈ ns, n.kind.isInline = false) :
    walkAll src [] ns = ns.flatMap (walk src) := by
  induction ns with
  | nil => rfl
  | cons n ns ih =>
    obtain ⟨hn, hns⟩ := List.forall_mem_cons.1 h
    rw [walkAll, if_neg (by simp [hn]), ih hns, List.flatMap_cons]
    rfl

/-- a stream has written what the leaves give, and what is pending there is pending here -/
structure Agrees (src : Source) (st : Stream) (g : Gathered) : Prop where
  ranges : st.blocks.reverse.flatMap (walk src) = g.leaves.flatMap (Leaf.ranges src)
  pending : st.inlines.reverse = ofInlines src g.pending
  block : ∀ n ∈ st.blocks, n.kind.isInline = false

namespace Agrees

theorem empty (src : Source) : Agrees src ⟨[], []⟩ ⟨[], []⟩ := ⟨rfl, rfl, by simp⟩

theorem flush (h : Agrees src st g) : Agrees src st.flush g.flush := by
  obtain ⟨blocks, inlines⟩ := st
  obtain ⟨leaves, pending⟩ := g
  have hpending : inlines.reverse = ofInlines src pending := h.pending
  have hback : inlines = (ofInlines src pending).reverse := by rw [← hpending, List.reverse_reverse]
  cases hp : pending with
  | nil =>
    subst hp
    obtain rfl : inlines = [] := hback
    exact h
  | cons i is =>
    have hne : ofInlines src (i :: is) ≠ [] := mt ofInlines_eq_nil.1 (List.cons_ne_nil i is)
    obtain ⟨n, ns, hns⟩ := List.exists_cons_of_ne_nil (List.reverse_ne_nil_iff.2 hne)
    rw [hp, hns] at hback
    subst hback
    have hchildren : (n :: ns).reverse = ofInlines src (i :: is) := by rw [← hns, List.reverse_reverse]
    refine ⟨?_, rfl, List.forall_mem_cons.2 ⟨rfl, h.block⟩⟩
    have hranges : blocks.reverse.flatMap (walk src) = leaves.flatMap (Leaf.ranges src) := h.ranges
    simp only [Stream.flush, Gathered.flush]
    rw [List.reverse_cons, List.flatMap_append, List.flatMap_append, hranges, List.flatMap_singleton,
      List.flatMap_singleton, hchildren, ← hns]
    rfl

/-- a block token gives its own leaves -/
theorem write (h : Agrees src st g) (hn : n.kind.isInline = false) (hls : walk src n = ls.flatMap (Leaf.ranges src)) :
    Agrees src (st.block n) (g.add ls) := by
  refine ⟨?_, ?_, List.forall_mem_cons.2 ⟨hn, h.flush.block⟩⟩
  · rw [Stream.block, Gathered.add, List.reverse_cons, List.flatMap_append, List.flatMap_append, h.flush.ranges,
      List.flatMap_singleton, hls]
  · have hnil : st.flush.inlines = [] := by
      unfold Stream.flush
      split
      · assumption
      · rfl
    simp [Stream.block, Gathered.add, hnil, ofInlines]

theorem inline (h : Agrees src st g) (content : List Inline) :
    Agrees src (st.inline (ofInlines src content)) { g with pending := g.pending ++ content } := by
  refine ⟨h.ranges, ?_, h.block⟩
  rw [Stream.inline, List.reverse_append, List.reverse_reverse, h.pending, ofInlines_append]

/-- tokens around what `body` writes -/
theorem pair (h : Agrees src st g) {opening closing : Token.Kind} {span : LineSpan} {markup : List Char} {tag : String}
    {body : Stream → Stream} {f : Gathered → Gathered} (hopen : opening.isInline = false)
    (hclose : Silent closing)
    (hls : walk src { kind := opening, span? := span, markup := String.ofList markup, tag } =
      ls.flatMap (Leaf.ranges src))
    (hbody : ∀ st g, Agrees src st g → Agrees src (body st) (f g)) :
    Agrees src (st.pair opening closing span markup tag body) ((f (g.add ls)).add []) :=
  (hbody _ _ (h.write hopen hls)).write hclose.1 (walk_silent hclose)

end Agrees

theorem containerShape_silent (src : Source) (offset : Nat) (c : Container) :
    Silent (containerShape src offset c).1 ∧ Silent (containerShape src offset c).2.1 := by
  have hquote : Silent .blockquoteOpen ∧ Silent .blockquoteClose := by decide
  have hordered : Silent .orderedListOpen ∧ Silent .orderedListClose := by decide
  have hbullet : Silent .bulletListOpen ∧ Silent .bulletListClose := by decide
  have hitem : Silent .listItemOpen ∧ Silent .listItemClose := by decide
  cases c with
  | quote => exact hquote
  | list delimiter tight =>
    simp only [containerShape]
    split_ifs
    · exact hordered
    · exact hbullet
  | item indent => exact hitem

mutual

theorem writeBlock_agrees (src : Source) : ∀ (b : ReadBlock) (bare : Bool) (st : Stream) (g : Gathered),
    Agrees src st g → Agrees src (writeBlock src bare b st) (gather bare b g)
  | .paragraph e content, bare, st, g, h => by
    unfold writeBlock gather
    split_ifs
    · exact h.inline content
    · exact h.pair (f := fun g => { g with pending := g.pending ++ content }) rfl (by decide) (walk_silent (by decide))
        fun st g h => h.inline content
  | .heading e level content, bare, st, g, h => by
    unfold writeBlock gather
    refine h.pair (f := fun g => { g with pending := g.pending ++ content }) rfl (by decide) ?_
      fun st g h => h.inline content
    rw [List.flatMap_singleton]
    rfl
  | .rule e, bare, st, g, h => by
    unfold writeBlock gather
    exact h.write rfl (walk_silent (by decide))
  | .fence e info body closed, bare, st, g, h => by
    unfold writeBlock gather
    refine h.write rfl ?_
    rw [List.flatMap_singleton]
    rfl
  | .indented e body, bare, st, g, h => by
    unfold writeBlock gather
    exact h.write rfl (walk_silent (by decide))
  | .html e body, bare, st, g, h => by
    unfold writeBlock gather
    exact h.write rfl (walk_silent (by decide))
  | .within e c blocks, bare, st, g, h => by
    have hshape := containerShape_silent src e.start c
    unfold writeBlock gather
    exact h.pair hshape.1.1 hshape.2 (walk_silent hshape.1) fun st g h => writeBlocks_agrees src blocks _ st g h

theorem writeBlocks_agrees (src : Source) : ∀ (bs : List ReadBlock) (bare : Bool) (st : Stream) (g : Gathered),
    Agrees src st g → Agrees src (writeBlocks src bare bs st) (gatherAll bare bs g)
  | [], bare, st, g, h => h
  | b :: bs, bare, st, g, h => by
    unfold writeBlocks gatherAll
    exact writeBlocks_agrees src bs bare _ _ (writeBlock_agrees src b bare st g h)

end

/-- **The ranges of a document are those of its leaves, in order.** -/
theorem collect_ofBlocks (src : Source) (blocks : List ReadBlock) :
    collect src (ofBlocks src blocks) = (leaves blocks).flatMap (Leaf.ranges src) := by
  have h := (writeBlocks_agrees src blocks false _ _ (Agrees.empty src)).flush
  have hblock : ∀ n ∈ (writeBlocks src false blocks ⟨[], []⟩).flush.blocks.reverse, n.kind.isInline = false :=
    fun n hn => h.block n (List.mem_reverse.1 hn)
  rw [leaves, ← h.ranges, ← walkAll_blocks hblock]
  exact List.append_nil _

/-- the decorations of a text are those by its blocks -/
theorem extract_eq (s : List Char) :
    extract s = ofTree (.ofText s) (Token.ofReport (.ofText s) (Markdown.Document.ofText s)) := rfl

/-! ## No block is left out -/

mutual

def leafBlocks : ReadBlock → List ReadBlock
  | .within _ _ blocks => leafBlocksAll blocks
  | b => [b]

def leafBlocksAll : List ReadBlock → List ReadBlock
  | [] => []
  | b :: bs => leafBlocks b ++ leafBlocksAll bs

end

def contentOf : ReadBlock → List Inline
  | .paragraph _ content => content
  | .heading _ _ content => content
  | _ => []

def fenceOf? : ReadBlock → Option Leaf
  | .fence e info body closed => some (.fence e info body closed)
  | _ => none

def Leaf.isFence : Leaf → Bool
  | .fence .. => true
  | _ => false

namespace Gathered

def content (g : Gathered) : List Inline := g.leaves.flatMap Leaf.content ++ g.pending

def fences (g : Gathered) : List Leaf := g.leaves.filter Leaf.isFence

theorem flush_eq (g : Gathered) : g.flush.content = g.content ∧ g.flush.fences = g.fences ∧ g.flush.pending = [] := by
  obtain ⟨leaves, pending⟩ := g
  cases pending with
  | nil => exact ⟨rfl, rfl, rfl⟩
  | cons i is => exact ⟨by simp [flush, content, Leaf.content], by simp [flush, fences, Leaf.isFence], rfl⟩

theorem content_add (g : Gathered) (ls : List Leaf) : (g.add ls).content = g.content ++ ls.flatMap Leaf.content := by
  obtain ⟨hcontent, -, hpending⟩ := g.flush_eq
  rw [← hcontent, content, content, hpending]
  simp [add]

/-- leaves are added, and inline elements are pending behind them -/
theorem content_fill (g : Gathered) (ls : List Leaf) (is : List Inline) :
    ({ g.add ls with pending := is } : Gathered).content = g.content ++ ls.flatMap Leaf.content ++ is := by
  rw [← content_add, content, content]
  simp [add]

theorem fences_add (g : Gathered) (ls : List Leaf) : (g.add ls).fences = g.fences ++ ls.filter Leaf.isFence := by
  rw [← g.flush_eq.2.1]
  simp [add, fences]

end Gathered

mutual

theorem gather_eq : ∀ (b : ReadBlock) (bare : Bool) (g : Gathered),
    (gather bare b g).content = g.content ++ (leafBlocks b).flatMap contentOf ∧
      (gather bare b g).fences = g.fences ++ (leafBlocks b).filterMap fenceOf?
  | .paragraph e content, bare, g => by
    unfold gather
    split_ifs
    · simp [Gathered.content, Gathered.fences, leafBlocks, contentOf, fenceOf?]
    · have hfences : ({ g.add [] with pending := content } : Gathered).fences = (g.add []).fences := rfl
      rw [Gathered.content_add, Gathered.content_fill, Gathered.fences_add, hfences, Gathered.fences_add]
      simp [leafBlocks, contentOf, fenceOf?]
  | .heading e level content, bare, g => by
    have hfences : ({ g.add [.heading e level] with pending := content } : Gathered).fences =
        (g.add [.heading e level]).fences := rfl
    unfold gather
    rw [Gathered.content_add, Gathered.content_fill, Gathered.fences_add, hfences, Gathered.fences_add]
    simp [leafBlocks, contentOf, fenceOf?, Leaf.content, Leaf.isFence]
  | .rule e, bare, g => by
    unfold gather
    rw [Gathered.content_add, Gathered.fences_add]
    simp [leafBlocks, contentOf, fenceOf?]
  | .fence e info body closed, bare, g => by
    unfold gather
    rw [Gathered.content_add, Gathered.fences_add]
    simp [leafBlocks, contentOf, fenceOf?, Leaf.content, Leaf.isFence]
  | .indented e body, bare, g => by
    unfold gather
    rw [Gathered.content_add, Gathered.fences_add]
    simp [leafBlocks, contentOf, fenceOf?]
  | .html e body, bare, g => by
    unfold gather
    rw [Gathered.content_add, Gathered.fences_add]
    simp [leafBlocks, contentOf, fenceOf?]
  | .within e c blocks, bare, g => by
    obtain ⟨hcontent, hfences⟩ := gatherAll_eq blocks (isBare bare c) (g.add [])
    unfold gather leafBlocks
    rw [Gathered.content_add, Gathered.fences_add, hcontent, hfences, Gathered.content_add, Gathered.fences_add]
    simp

theorem gatherAll_eq : ∀ (bs : List ReadBlock) (bare : Bool) (g : Gathered),
    (gatherAll bare bs g).content = g.content ++ (leafBlocksAll bs).flatMap contentOf ∧
      (gatherAll bare bs g).fences = g.fences ++ (leafBlocksAll bs).filterMap fenceOf?
  | [], bare, g => by simp [gatherAll, leafBlocksAll]
  | b :: bs, bare, g => by
    obtain ⟨hcontent, hfences⟩ := gather_eq b bare g
    obtain ⟨hcontent', hfences'⟩ := gatherAll_eq bs bare (gather bare b g)
    unfold gatherAll leafBlocksAll
    rw [hcontent', hfences', hcontent, hfences]
    simp

end

/-- **Every inline element of a document is in one of its leaves**, once and in order. -/
theorem flatMap_content_leaves (blocks : List ReadBlock) :
    (leaves blocks).flatMap Leaf.content = (leafBlocksAll blocks).flatMap contentOf := by
  obtain ⟨hcontent, -⟩ := gatherAll_eq blocks false ⟨[], []⟩
  obtain ⟨hflush, -, hpending⟩ := (gatherAll false blocks ⟨[], []⟩).flush_eq
  rw [hcontent, Gathered.content, hpending, List.append_nil] at hflush
  exact hflush

/-- **Every fence of a document is one of its leaves.** -/
theorem fence_mem_leaves {blocks : List ReadBlock} {e : Extent} {info body : List Char} {closed : Bool} :
    Leaf.fence e info body closed ∈ leaves blocks ↔ .fence e info body closed ∈ leafBlocksAll blocks := by
  obtain ⟨-, hfences⟩ := gatherAll_eq blocks false ⟨[], []⟩
  have hflush := (gatherAll false blocks ⟨[], []⟩).flush_eq.2.1
  have hfilter : (leaves blocks).filter Leaf.isFence = (leafBlocksAll blocks).filterMap fenceOf? := hflush.trans hfences
  have hmem : Leaf.fence e info body closed ∈ leaves blocks ↔
      Leaf.fence e info body closed ∈ (leaves blocks).filter Leaf.isFence := by simp [Leaf.isFence]
  rw [hmem, hfilter, List.mem_filterMap]
  constructor
  · rintro ⟨b, hb, hfound⟩
    cases b <;> simp [fenceOf?] at hfound
    obtain ⟨rfl, rfl, rfl, rfl⟩ := hfound
    exact hb
  · exact fun hb => ⟨_, hb, rfl⟩

end MarkVeil.Decoration
