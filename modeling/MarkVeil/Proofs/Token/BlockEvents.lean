/-
What the events of blocks write.

`Writes` says what events do to a token stream, with one constructor for each kind of element. The builder does just
that (`Writes.does`), and well-nested events always do something (`exists_writes`). What the events of a document do is
what `writeBlocks` does for its blocks (`ofReport_eq`).
-/
import MarkVeil.Proofs.Token.Events
import MarkVeil.Proofs.Token.InlineEvents
import MarkVeil.Proofs.Token.Recursion

namespace MarkVeil.Token

open MarkVeil.Text
open MarkVeil.Markdown (Container Event Inline Level Nested ReadBlock Tag WellNested enclose isBare nested_of_wellNested)

variable {src : Source} {b b' : Builder} {n m o c : Node} {ns ms : List Node} {p : Pending} {ps : List Pending} {e : Extent}
  {es es' body : List (Event × Extent)} {st : Stream} {l : Level}

/-! ## Events of blocks -/

/-- the container of inline tokens, last first -/
def gathered : List Node → Option Node
  | [] => none
  | ns => some { kind := .inline, span? := hull ns, children := ns.reverse }

namespace Stream

/-- write a block token behind the others, with what is pending behind it still -/
def append (n : Node) (st : Stream) : Stream := { st with blocks := n :: st.blocks }

/-- all that is pending covers lines -/
def Placed (st : Stream) : Prop := ∀ n ∈ st.inlines, n.Placed

theorem inlines_flush (st : Stream) : st.flush.inlines = [] := by
  unfold flush
  split
  · assumption
  · rfl

theorem placed_flush : st.flush.Placed := by
  rw [Placed, inlines_flush]
  exact List.forall_mem_nil _

theorem blocks_flush (st : Stream) : st.flush.blocks = (gathered st.inlines).toList ++ st.blocks := by
  obtain ⟨blocks, inlines⟩ := st
  cases inlines <;> rfl

end Stream

/-- the builder that has written a stream, with elements that wait -/
def Builder.ofStream (st : Stream) (ps : List Pending) : Builder := ⟨st.blocks, gathered st.inlines, ps⟩

theorem intoImage?_eq_none (hps : ∀ p ∈ ps, p.isImage = false) : Builder.intoImage? n ps = none := by
  cases hinto : Builder.intoImage? n ps with
  | none => rfl
  | some qs =>
    obtain ⟨front, m, rest, rfl, -⟩ := Builder.intoImage?_split hinto
    cases hps (.image m) (List.mem_append_right _ List.mem_cons_self)

theorem hull_comm (x y : LineSpan) : x.hull y = y.hull x := by
  rw [LineSpan.hull, LineSpan.hull, Nat.min_comm, Nat.max_comm]

theorem exists_hull (hns : ∀ m ∈ n :: ns, m.Placed) : ∃ span, hull (n :: ns) = some span := by
  obtain ⟨a, ha⟩ := Option.isSome_iff_exists.1 (hns n List.mem_cons_self)
  rw [hull, ha]
  cases hull ns <;> exact ⟨_, rfl⟩

/-- **The container grows with each token to the lines of all of them.** -/
theorem put_ofStream (hps : ∀ p ∈ ps, p.isImage = false) (hst : st.Placed) (hn : n.Placed) :
    (Builder.ofStream st ps).put src n = Builder.ofStream (st.inline [n]) ps := by
  obtain ⟨span, hspan⟩ := Option.isSome_iff_exists.1 hn
  obtain ⟨blocks, inlines⟩ := st
  rw [Builder.put, Builder.pushInline, Builder.ofStream]
  simp only [intoImage?_eq_none hps, hspan, Option.getD_some]
  cases inlines with
  | nil => simp [Builder.ofStream, Stream.inline, gathered, hull, hspan, LineSpan.hull]
  | cons m ms =>
    obtain ⟨all, hall⟩ := exists_hull hst
    have hmore : hull (n :: m :: ms) = some (all.hull span) := by rw [hull, hspan, hall, hull_comm]
    simp [Builder.ofStream, Stream.inline, gathered, hall, hmore]

theorem placed_inline (hst : st.Placed) (hns : ∀ n ∈ ns, n.Placed) : (st.inline ns).Placed := by
  intro n hn
  rcases List.mem_append.1 hn with hn | hn
  · exact hns n (List.mem_reverse.1 hn)
  · exact hst n hn

theorem putAll_ofStream (hps : ∀ p ∈ ps, p.isImage = false) (hst : st.Placed) (hns : ∀ n ∈ ns, n.Placed) :
    (Builder.ofStream st ps).putAll src ns = Builder.ofStream (st.inline ns) ps := by
  induction ns generalizing st with
  | nil => rfl
  | cons n ns ih =>
    obtain ⟨hn, hrest⟩ := List.forall_mem_cons.1 hns
    have hplaced := placed_inline hst (List.forall_mem_singleton.2 hn)
    rw [Builder.putAll, List.foldl_cons, put_ofStream hps hst hn, ← Builder.putAll, ih hplaced hrest]
    simp [Stream.inline]

theorem flush_ofStream (st : Stream) (ps : List Pending) :
    (Builder.ofStream st ps).flush = Builder.ofStream st.flush ps := by
  rw [Builder.flush, Builder.ofStream, Builder.ofStream, st.blocks_flush, st.inlines_flush]
  rfl

theorem pushBlock_ofStream (st : Stream) (ps : List Pending) (n : Node) :
    (Builder.ofStream st ps).pushBlock n = Builder.ofStream (st.block n) ps := by
  rw [Builder.pushBlock, flush_ofStream]
  rfl

/-- a note in the text of the block of code or HTML that waits on top -/
def onTop (note : Option String → Option String) : List Pending → List Pending
  | .literal n :: ps => .literal { n with content? := note n.content? } :: ps
  | ps => ps

/-- text that is no token in a block of code or HTML, and its token elsewhere -/
def literalText? (src : Source) : Event × Extent → Option (List Char × Node)
  | (.text t, e) => some (t, textToken src t e)
  | (.html t, e) => some (t, htmlToken src t e)
  | _ => none

def ruleToken (src : Source) (e : Extent) : Node :=
  { kind := .hr, span? := spanOf src e, markup := String.ofList (trim (textOf src e)), tag := "hr" }

/-- kinds of the tokens around a block, its HTML element and its marker -/
def blockShape? (src : Source) (e : Extent) : Tag → Option (Kind × Kind × String × List Char)
  | .paragraph => some (.paragraphOpen, .paragraphClose, "p", [])
  | .heading level =>
    some (.headingOpen, .headingClose, String.ofList ['h', level.digitChar], headingMarker src e level)
  | .quote => some (.blockquoteOpen, .blockquoteClose, "blockquote", ['>'])
  | .orderedList => some (.orderedListOpen, .orderedListClose, "ol", numberMarker src e.start)
  | .bulletList => some (.bulletListOpen, .bulletListClose, "ul", bulletMarker src e.start)
  | .item => some (.listItemOpen, .listItemClose, "li", [])
  | _ => none

/-- the token of a block of code or HTML, without its text -/
def literalToken? (src : Source) (e : Extent) : Tag → Option Node
  | .fence info =>
    some { kind := .fence, span? := spanOf src e, markup := String.ofList (fenceMarkup src e.start), tag := "code",
           info? := if (trim info).isEmpty then none else some (String.ofList (trim info)) }
  | .indented => some { kind := .codeBlock, span? := spanOf src e, tag := "code" }
  | .html => some { kind := .htmlBlock, span? := spanOf src e }
  | _ => none

/-- inline events that make the same tokens wherever they stand: all but text -/
inductive Solid (src : Source) : List (Event × Extent) → List Node → Prop
  | leaf {x : Event × Extent} {n : Node} (h : leafToken? src x = some n) (hx : literalText? src x = none) :
      Solid src [x] [n]
  | silent (e : Extent) : Solid src [(.other, e)] []
  | element {tag : Tag} {e e' : Extent} {o c : Node} {body : List (Event × Extent)} {ns : List Node}
      (h : inlineTokens? src e tag = some (o, c)) (inside : Makes src body ns) :
      Solid src ((.start tag, e) :: (body ++ [(.stop, e')])) (o :: (ns ++ [c]))
  | image {e e' : Extent} {body : List (Event × Extent)} {ns : List Node} (inside : Makes src body ns) :
      Solid src ((.start .image, e) :: (body ++ [(.stop, e')])) [imageToken src e ns]

theorem Solid.makes (h : Solid src es ns) : Makes src es ns := by
  cases h with
  | leaf h _ => exact .leaf h
  | silent e => exact .silent e
  | element h inside => exact .element h inside
  | image inside => exact .image inside

theorem Solid.run (h : Solid src es ns) (b : Builder) : b.run src es = b.putAll src ns := by
  cases h with
  | @leaf x n h hx =>
    obtain ⟨ev, e⟩ := x
    have hn := placed_leafToken h
    cases ev <;> simp only [leafToken?, literalText?, Option.some.injEq, reduceCtorEq] at h hx <;> subst h <;>
      exact Builder.pushInline_eq hn
  | silent e => rfl
  | element h inside => exact run_element h inside.run b
  | image inside => exact run_image inside.run b

/-- Events of blocks write to a stream, in one way directly in a block of code or HTML and in another elsewhere; `note`
is what they add to the text of such a block. -/
inductive Writes (src : Source) :
    List (Event × Extent) → (Bool → Stream → Stream) → (Option String → Option String) → Prop
  | nil : Writes src [] (fun _ => id) id
  | append {es es' : List (Event × Extent)} {write write' : Bool → Stream → Stream}
      {note note' : Option String → Option String} (first : Writes src es write note) (rest : Writes src es' write' note') :
      Writes src (es ++ es') (fun literal => write' literal ∘ write literal) (note' ∘ note)
  | text {x : Event × Extent} {t : List Char} {n : Node} (h : literalText? src x = some (t, n)) :
      Writes src [x] (fun literal => if literal then id else Stream.inline [n])
        (fun content? => some (content?.getD "" ++ String.ofList t))
  | inline {es : List (Event × Extent)} {ns : List Node} (h : Solid src es ns) : Writes src es (fun _ => Stream.inline ns) id
  | rule (e : Extent) : Writes src [(.rule, e)] (fun _ => Stream.block (ruleToken src e)) id
  | block {tag : Tag} {e e' : Extent} {opening closing : Kind} {name : String} {markup : List Char}
      {body : List (Event × Extent)} {write : Bool → Stream → Stream} {note : Option String → Option String}
      (h : blockShape? src e tag = some (opening, closing, name, markup)) (inside : Writes src body write note) :
      Writes src ((.start tag, e) :: (body ++ [(.stop, e')]))
        (fun _ => Stream.pair opening closing (spanOf src e) markup name (write false)) id
  | literal {tag : Tag} {e e' : Extent} {n : Node} {body : List (Event × Extent)} {write : Bool → Stream → Stream}
      {note : Option String → Option String} (h : literalToken? src e tag = some n) (inside : Writes src body write note) :
      Writes src ((.start tag, e) :: (body ++ [(.stop, e')]))
        (fun _ => Stream.append { n with content? := note n.content? } ∘ write true ∘ Stream.flush) id
  | ignored {e e' : Extent} {body : List (Event × Extent)} {write : Bool → Stream → Stream}
      {note : Option String → Option String} (inside : Writes src body write note) :
      Writes src ((.start .other, e) :: (body ++ [(.stop, e')])) (fun _ => write false) id

theorem onTop_id (ps : List Pending) : onTop id ps = ps := by
  cases ps with
  | nil => rfl
  | cons p ps =>
    cases p with
    | literal n => cases n; rfl
    | _ => rfl

theorem onTop_eq (note : Option String → Option String) (h : inLiteral ps = false) : onTop note ps = ps := by
  cases ps with
  | nil => rfl
  | cons p ps =>
    cases p with
    | literal n => exact absurd h.symm Bool.false_ne_true
    | _ => rfl

theorem onTop_onTop (note note' : Option String → Option String) (ps : List Pending) :
    onTop note' (onTop note ps) = onTop (note' ∘ note) ps := by
  cases ps with
  | nil => rfl
  | cons p ps => cases p <;> rfl

theorem inLiteral_onTop (note : Option String → Option String) (ps : List Pending) :
    inLiteral (onTop note ps) = inLiteral ps := by
  cases ps with
  | nil => rfl
  | cons p ps => cases p <;> rfl

theorem isImage_onTop (note : Option String → Option String) (hps : ∀ p ∈ ps, p.isImage = false) :
    ∀ p ∈ onTop note ps, p.isImage = false := by
  cases ps with
  | nil => exact hps
  | cons p ps =>
    cases p with
    | literal n => exact List.forall_mem_cons.2 ⟨rfl, (List.forall_mem_cons.1 hps).2⟩
    | _ => exact hps

theorem placed_block (n : Node) (st : Stream) : (st.block n).Placed := st.placed_flush

theorem blockShape_ne_image {tag : Tag} {shape : Kind × Kind × String × List Char}
    (h : blockShape? src e tag = some shape) : tag ≠ .image := by
  rintro rfl
  cases h

theorem literalToken_ne_image {tag : Tag} (h : literalToken? src e tag = some n) : tag ≠ .image := by
  rintro rfl
  cases h

theorem start_block {tag : Tag} {opening closing : Kind} {name : String} {markup : List Char}
    (h : blockShape? src e tag = some (opening, closing, name, markup)) (b : Builder) :
    b.start src tag e = b.openBlock src e opening closing name markup := by
  cases tag <;> simp only [blockShape?, Option.some.injEq, Prod.mk.injEq, reduceCtorEq] at h <;>
    obtain ⟨rfl, rfl, rfl, rfl⟩ := h <;> rfl

theorem start_literal {tag : Tag} (h : literalToken? src e tag = some n) (b : Builder) :
    b.start src tag e = b.openLiteral n := by
  cases tag <;> simp only [literalToken?, Option.some.injEq, reduceCtorEq] at h <;> subst h <;> rfl

theorem step_text {x : Event × Extent} {t : List Char} (h : literalText? src x = some (t, n)) :
    n.Placed ∧ leafToken? src x = some n ∧
      ∀ (b : Builder) (m : Node), (b.await (.literal m)).step src x =
        b.await (.literal { m with content? := some (m.content?.getD "" ++ String.ofList t) }) := by
  obtain ⟨ev, e⟩ := x
  cases ev <;> simp only [literalText?, Option.some.injEq, Prod.mk.injEq, reduceCtorEq] at h <;>
    obtain ⟨rfl, rfl⟩ := h <;> exact ⟨rfl, rfl, fun _ _ => rfl⟩

/-- what an element around blocks does, which waits for its stop -/
theorem run_around {tag : Tag} {e' : Extent} (hstart : b.start src tag e = Builder.ofStream st (p :: ps))
    (hbody : (Builder.ofStream st (p :: ps)).run src body = b') :
    b.run src ((.start tag, e) :: (body ++ [(.stop, e')])) = b'.stop src := by
  rw [Builder.run_cons, Builder.run_append, Builder.step, hstart, hbody]
  rfl

/-- the builder does what is written, whatever waits on its stack but images -/
def Does (src : Source) (es : List (Event × Extent)) (write : Bool → Stream → Stream)
    (note : Option String → Option String) : Prop :=
  ∀ (st : Stream) (ps : List Pending), st.Placed → (∀ p ∈ ps, p.isImage = false) →
    (write (inLiteral ps) st).Placed ∧
      (Builder.ofStream st ps).run src es = Builder.ofStream (write (inLiteral ps) st) (onTop note ps)

section Does

variable {write write' : Bool → Stream → Stream} {note note' : Option String → Option String} {tag : Tag} {e' : Extent}

theorem does_nil : Does src [] (fun _ => id) id := by
  intro st ps hst _
  rw [onTop_id]
  exact ⟨hst, rfl⟩

theorem Does.append (h : Does src es write note) (h' : Does src es' write' note') :
    Does src (es ++ es') (fun literal => write' literal ∘ write literal) (note' ∘ note) := by
  intro st ps hst hps
  obtain ⟨hplaced, hfirst⟩ := h st ps hst hps
  have hrest := h' _ (onTop note ps) hplaced (isImage_onTop note hps)
  rw [inLiteral_onTop, onTop_onTop] at hrest
  refine ⟨hrest.1, ?_⟩
  rw [Builder.run_append, hfirst, hrest.2]
  rfl

/-- text goes to a block of code or HTML on top of what waits, and is a token of its own otherwise -/
theorem does_text {x : Event × Extent} {t : List Char} (h : literalText? src x = some (t, n)) :
    Does src [x] (fun literal => if literal then id else Stream.inline [n])
      (fun content? => some (content?.getD "" ++ String.ofList t)) := by
  obtain ⟨hn, hleaf, hadd⟩ := step_text h
  intro st ps hst hps
  cases hlit : inLiteral ps with
  | false =>
    refine ⟨placed_inline hst (List.forall_mem_singleton.2 hn), ?_⟩
    rw [onTop_eq _ hlit]
    exact (step_leaf hleaf hlit).trans (put_ofStream hps hst hn)
  | true =>
    cases ps with
    | nil => exact absurd hlit Bool.false_ne_true
    | cons p ps =>
      cases p with
      | literal m => exact ⟨hst, hadd (.ofStream st ps) m⟩
      | _ => exact absurd hlit Bool.false_ne_true

theorem does_inline (h : Solid src es ns) : Does src es (fun _ => Stream.inline ns) id := by
  intro st ps hst hps
  have hns := h.makes.placed
  refine ⟨placed_inline hst hns, ?_⟩
  rw [h.run, putAll_ofStream hps hst hns, onTop_id]

theorem does_rule (e : Extent) : Does src [(.rule, e)] (fun _ => Stream.block (ruleToken src e)) id := by
  intro st ps _ _
  refine ⟨placed_block _ st, ?_⟩
  rw [onTop_id]
  exact pushBlock_ofStream st ps _

/-- an element around blocks writes a token before and behind what is in it -/
theorem does_block {opening closing : Kind} {name : String} {markup : List Char}
    (h : blockShape? src e tag = some (opening, closing, name, markup)) (inside : Does src body write note) :
    Does src ((.start tag, e) :: (body ++ [(.stop, e')]))
      (fun _ => Stream.pair opening closing (spanOf src e) markup name (write false)) id := by
  intro st ps _ hps
  have hwait : ∀ p ∈ Pending.block closing name (String.ofList markup) (spanOf src e) :: ps, p.isImage = false :=
    List.forall_mem_cons.2 ⟨rfl, hps⟩
  have hstart := (start_block h (Builder.ofStream st ps)).trans
    (congrArg (Builder.await _) (pushBlock_ofStream st ps _))
  obtain ⟨-, hbody⟩ := inside _ _ (placed_block _ st) hwait
  refine ⟨placed_block _ _, ?_⟩
  rw [run_around hstart hbody, onTop_id]
  exact pushBlock_ofStream _ ps _

/-- a block of code or HTML writes its token with the text in it behind what is in it -/
theorem does_literal (h : literalToken? src e tag = some n) (inside : Does src body write note) :
    Does src ((.start tag, e) :: (body ++ [(.stop, e')]))
      (fun _ => Stream.append { n with content? := note n.content? } ∘ write true ∘ Stream.flush) id := by
  intro st ps _ hps
  have hwait : ∀ p ∈ Pending.literal n :: ps, p.isImage = false := List.forall_mem_cons.2 ⟨rfl, hps⟩
  have hstart := (start_literal h (Builder.ofStream st ps)).trans (congrArg (Builder.await _) (flush_ofStream st ps))
  obtain ⟨hplaced, hbody⟩ := inside st.flush _ st.placed_flush hwait
  refine ⟨hplaced, ?_⟩
  rw [run_around hstart hbody, onTop_id]
  rfl

theorem does_ignored (inside : Does src body write note) :
    Does src ((.start .other, e) :: (body ++ [(.stop, e')])) (fun _ => write false) id := by
  intro st ps hst hps
  obtain ⟨hplaced, hbody⟩ := inside st (.ignored :: ps) hst (List.forall_mem_cons.2 ⟨rfl, hps⟩)
  refine ⟨hplaced, ?_⟩
  rw [run_around rfl hbody, onTop_id]
  rfl

/-- **The builder writes what the events of blocks write.** -/
theorem Writes.does (h : Writes src es write note) : Does src es write note := by
  induction h with
  | nil => exact does_nil
  | append _ _ ihFirst ihRest => exact ihFirst.append ihRest
  | text h => exact does_text h
  | inline h => exact does_inline h
  | rule e => exact does_rule e
  | block h _ ih => exact does_block h ih
  | literal h _ ih => exact does_literal h ih
  | ignored _ ih => exact does_ignored ih

end Does

/-! ## Well-nested events do something -/

/-- directly in a block, inline events write their tokens -/
theorem Makes.writes (h : Makes src es ns) :
    ∃ write note, Writes src es write note ∧ write false = Stream.inline ns := by
  induction h with
  | nil => exact ⟨_, _, .nil, rfl⟩
  | @append es es' ns ms _ _ ihFirst ihRest =>
    obtain ⟨write, note, hfirst, hinline⟩ := ihFirst
    obtain ⟨write', note', hrest, hinline'⟩ := ihRest
    refine ⟨_, _, .append hfirst hrest, ?_⟩
    funext st
    simp [hinline, hinline', Stream.inline]
  | @leaf x n h =>
    cases htext : literalText? src x with
    | some tn =>
      obtain ⟨-, hleaf, -⟩ := step_text htext
      obtain rfl := Option.some.inj (hleaf.symm.trans h)
      exact ⟨_, _, .text htext, rfl⟩
    | none => exact ⟨_, _, .inline (.leaf h htext), rfl⟩
  | silent e => exact ⟨_, _, .inline (.silent e), rfl⟩
  | element h inside _ => exact ⟨_, _, .inline (.element h inside), rfl⟩
  | image inside _ => exact ⟨_, _, .inline (.image inside), rfl⟩
  | ignored _ ih =>
    obtain ⟨write, note, hwrite, hinline⟩ := ih
    exact ⟨_, _, .ignored hwrite, hinline⟩

theorem exists_leaf {x : Event × Extent} (h : x.1.isLeaf = true) : ∃ ns, Makes src [x] ns := by
  obtain ⟨ev, e⟩ := x
  cases ev with
  | start tag => exact absurd h Bool.false_ne_true
  | stop => exact absurd h Bool.false_ne_true
  | rule => exact absurd h Bool.false_ne_true
  | other => exact ⟨[], .silent e⟩
  | _ => exact ⟨[_], .leaf rfl⟩

/-- an element of which the inside makes tokens makes tokens, if it may stand among inline elements -/
theorem Makes.exists_element {tag : Tag} {e' : Extent} (h : tag.inside? .inline = some l) (inside : Makes src body ns) :
    ∃ ms, Makes src ((.start tag, e) :: (body ++ [(.stop, e')])) ms := by
  cases tag with
  | stress kind => exact ⟨_, .element rfl inside⟩
  | link form => exact ⟨_, .element rfl inside⟩
  | image => exact ⟨_, .image inside⟩
  | other => exact ⟨_, .ignored inside⟩
  | _ => cases h

/-- an element, and what follows it -/
theorem split_element (tag : Tag) (e e' : Extent) (body es : List (Event × Extent)) :
    (.start tag, e) :: (body ++ (.stop, e') :: es) = ((.start tag, e) :: (body ++ [(.stop, e')])) ++ es := by
  simp

theorem exists_makes (h : Nested l es) (hl : l = .inline) : ∃ ns, Makes src es ns := by
  induction h with
  | nil => exact ⟨[], .nil⟩
  | leaf h _ ih =>
    obtain ⟨ns, hleaf⟩ := exists_leaf h
    obtain ⟨ms, hrest⟩ := ih hl
    exact ⟨_, .append hleaf hrest⟩
  | rule _ _ => cases hl
  | @element l inner tag e e' body es h _ _ ihInside ihRest =>
    subst hl
    have hinner : inner = .inline := by cases tag <;> simp_all [Tag.inside?]
    obtain ⟨ns, hinside⟩ := ihInside hinner
    obtain ⟨ms, helement⟩ := hinside.exists_element h
    obtain ⟨rest, hrest⟩ := ihRest rfl
    rw [split_element]
    exact ⟨_, .append helement hrest⟩

/-- an element in a block, by what is inside it -/
theorem exists_element {inner : Level} {tag : Tag} {e' : Extent} (h : tag.inside? .block = some inner)
    (hinline : inner = .inline → ∃ ns, Makes src body ns)
    (hblock : inner = .block → ∃ write note, Writes src body write note) :
    ∃ write note, Writes src ((.start tag, e) :: (body ++ [(.stop, e')])) write note := by
  cases tag with
  | stress kind =>
    obtain ⟨_, hinside⟩ := hinline (Option.some.inj h).symm
    exact ⟨_, _, .inline (.element rfl hinside)⟩
  | link form =>
    obtain ⟨_, hinside⟩ := hinline (Option.some.inj h).symm
    exact ⟨_, _, .inline (.element rfl hinside)⟩
  | image =>
    obtain ⟨_, hinside⟩ := hinline (Option.some.inj h).symm
    exact ⟨_, _, .inline (.image hinside)⟩
  | other =>
    obtain ⟨_, _, hinside⟩ := hblock (Option.some.inj h).symm
    exact ⟨_, _, .ignored hinside⟩
  | fence info =>
    obtain ⟨_, _, hinside⟩ := hblock (Option.some.inj h).symm
    exact ⟨_, _, .literal rfl hinside⟩
  | indented =>
    obtain ⟨_, _, hinside⟩ := hblock (Option.some.inj h).symm
    exact ⟨_, _, .literal rfl hinside⟩
  | html =>
    obtain ⟨_, _, hinside⟩ := hblock (Option.some.inj h).symm
    exact ⟨_, _, .literal rfl hinside⟩
  | _ =>
    obtain ⟨_, _, hinside⟩ := hblock (Option.some.inj h).symm
    exact ⟨_, _, .block rfl hinside⟩

theorem writes_of_nested (h : Nested l es) (hl : l = .block) : ∃ write note, Writes src es write note := by
  induction h with
  | nil => exact ⟨_, _, .nil⟩
  | leaf h _ ih =>
    obtain ⟨ns, hleaf⟩ := exists_leaf h
    obtain ⟨_, _, hwrite, -⟩ := hleaf.writes
    obtain ⟨_, _, hrest⟩ := ih hl
    exact ⟨_, _, .append hwrite hrest⟩
  | rule _ ih =>
    obtain ⟨_, _, hrest⟩ := ih rfl
    exact ⟨_, _, .append (.rule _) hrest⟩
  | @element l inner tag e e' body es h inside _ ihInside ihRest =>
    subst hl
    obtain ⟨_, _, helement⟩ := exists_element h (exists_makes inside) ihInside
    obtain ⟨_, _, hrest⟩ := ihRest rfl
    rw [split_element]
    exact ⟨_, _, .append helement hrest⟩

/-- **Well-nested events do something.** -/
theorem exists_writes (src : Source) (h : WellNested es) : ∃ write note, Writes src es write note :=
  writes_of_nested (nested_of_wellNested h) rfl

/-- the tree of events that write -/
theorem Writes.ofEvents {write : Bool → Stream → Stream} {note : Option String → Option String}
    (h : Writes src es write note) :
    ofEvents src es = { kind := .document, span? := LineSpan.ofLines 0 src.lines.count,
                        children := (write false ⟨[], []⟩).flush.blocks.reverse } := by
  obtain ⟨-, hrun⟩ := h.does ⟨[], []⟩ [] (List.forall_mem_nil _) (List.forall_mem_nil _)
  have hempty : Builder.empty = Builder.ofStream ⟨[], []⟩ [] := rfl
  rw [Token.ofEvents, hempty, hrun, Builder.finish, flush_ofStream]
  rfl

/-! ## The events of a document -/

/-- the reader tells of text as it is written -/
theorem textToken_eq (src : Source) (e : Extent) : textToken src ((slice? src.text e.start e.stop).getD []) e =
    { kind := .text, span? := spanOf src e, content? := String.ofList (textOf src e) } := by
  rw [textToken, textOf]
  cases slice? src.text e.start e.stop <;> rfl

mutual

theorem makes_inline (src : Source) : ∀ i : Inline, Makes src (i.events src.text) (ofInline src i)
  | .text e => .leaf (congrArg some (textToken_eq src e))
  | .code _ _ => .leaf rfl
  | .html _ _ => .leaf rfl
  | .softBreak _ => .leaf rfl
  | .hardBreak _ => .leaf rfl
  | .stress _ _ children => .element rfl (makes_inlines src children)
  | .link _ _ children => .element rfl (makes_inlines src children)
  | .image _ children => .image (makes_inlines src children)

theorem makes_inlines (src : Source) : ∀ is : List Inline, Makes src (Inline.eventsAll src.text is) (ofInlines src is)
  | [] => .nil
  | i :: is => .append (makes_inline src i) (makes_inlines src is)

end

theorem blockShape_container (src : Source) (e : Extent) (c : Container) :
    ∃ opening closing name markup, blockShape? src e c.tag = some (opening, closing, name, markup) ∧
      containerShape src e.start c = (opening, closing, name, markup) := by
  cases c with
  | list delimiter tight =>
    rw [Container.tag, containerShape]
    split_ifs <;> exact ⟨_, _, _, _, rfl, rfl⟩
  | quote => exact ⟨_, _, _, _, rfl, rfl⟩
  | item _ => exact ⟨_, _, _, _, rfl, rfl⟩

/-- a block of code or HTML that is told with its text -/
theorem writes_literal {tag : Tag} {x : Event × Extent} {t : List Char} (h : literalToken? src e tag = some n)
    (hx : literalText? src x = some (t, m)) (hn : n.content? = none) :
    ∃ write note, Writes src (enclose tag e (if t.isEmpty then [] else [x])) write note ∧
      write false = Stream.block { n with content? := if t.isEmpty then none else some (String.ofList t) } := by
  cases t with
  | nil =>
    refine ⟨_, _, .literal h .nil, ?_⟩
    rw [hn]
    rfl
  | cons d t =>
    refine ⟨_, _, .literal h (.text hx), ?_⟩
    rw [hn]
    funext st
    simp [Stream.block, Stream.append]

/-- a block around others -/
theorem writes_pair {tag : Tag} {opening closing : Kind} {name : String} {markup : List Char} {write : Stream → Stream}
    (h : blockShape? src e tag = some (opening, closing, name, markup))
    (hbody : ∃ write' note, Writes src body write' note ∧ write' false = write) :
    ∃ write' note, Writes src (enclose tag e body) write' note ∧
      write' false = Stream.pair opening closing (spanOf src e) markup name write := by
  obtain ⟨_, _, hwrites, rfl⟩ := hbody
  exact ⟨_, _, .block h hwrites, rfl⟩

mutual

theorem writes_block (src : Source) : ∀ (b : ReadBlock) (bare : Bool), ∃ write note,
    Writes src (Markdown.Block.events src.text bare b) write note ∧ write false = writeBlock src bare b
  | .paragraph e content, bare => by
    have hcontent := (makes_inlines src content).writes
    rw [Markdown.Block.events]
    cases bare with
    | true => exact hcontent
    | false => exact writes_pair rfl hcontent
  | .heading e level content, _ => writes_pair rfl (makes_inlines src content).writes
  | .rule e, _ => ⟨_, _, .rule e, rfl⟩
  | .fence e info body _, _ =>
    writes_literal (x := (.text body, e)) (show literalToken? src e (.fence info) = some _ from rfl) rfl rfl
  | .indented e body, _ =>
    writes_literal (x := (.text body, e)) (show literalToken? src e .indented = some _ from rfl) rfl rfl
  | .html e body, _ => writes_literal (x := (.html body, e)) (show literalToken? src e .html = some _ from rfl) rfl rfl
  | .within e c blocks, bare => by
    obtain ⟨opening, closing, name, markup, htag, hshape⟩ := blockShape_container src e c
    obtain ⟨write, note, hwrites, hwrite⟩ := writes_pair htag (writes_blocks src blocks (isBare bare c))
    refine ⟨write, note, hwrites, ?_⟩
    rw [hwrite]
    funext st
    rw [writeBlock, hshape]

theorem writes_blocks (src : Source) : ∀ (bs : List ReadBlock) (bare : Bool), ∃ write note,
    Writes src (Markdown.Block.eventsAll src.text bare bs) write note ∧ write false = writeBlocks src bare bs
  | [], _ => ⟨_, _, .nil, rfl⟩
  | b :: bs, bare => by
    obtain ⟨_, _, hb, hwrite⟩ := writes_block src b bare
    obtain ⟨_, _, hbs, hwrites⟩ := writes_blocks src bs bare
    refine ⟨_, _, .append hb hbs, ?_⟩
    rw [hwrite, hwrites]
    rfl

end

/-- the tree that the builder makes when a reader reports some blocks for a text -/
def ofReport (src : Source) (blocks : List ReadBlock) : Node :=
  ofEvents src (Markdown.Block.eventsAll src.text false blocks)

/-- **The builder makes of reported blocks the tree that recursion over the blocks gives.** -/
theorem ofReport_eq (src : Source) (blocks : List ReadBlock) : ofReport src blocks = ofBlocks src blocks := by
  obtain ⟨_, _, hwrites, hwrite⟩ := writes_blocks src blocks false
  rw [ofReport, hwrites.ofEvents, hwrite]
  rfl

end MarkVeil.Token
