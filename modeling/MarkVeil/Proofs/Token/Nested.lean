/-
Tokens are nested.

`BlockStream` and `InlineStream` are the grammars of properly nested tokens: whatever opens is closed by a token of its
own close kind with the same tag and markup, and only containers of inline tokens and images have children. What
well-nested events write appends a block stream and leaves an inline stream pending (`Stream.Nests`). Main results:
- `parse_nested`: the tree that well-nested events make is nested, with the tokens of an image's description in the
  image only, and so is the tree of every text.
-/
import MarkVeil.Proofs.Token.BlockEvents

namespace MarkVeil.Markdown

open MarkVeil.Text

/-- Events without those inside images. Of the elements that have started and not stopped, `depth` are the outermost
image and what is in it. -/
def dropDescriptions (depth : Nat) : List (Event × Extent) → List (Event × Extent)
  | [] => []
  | (.start tag, e) :: es =>
    match depth with
    | 0 => (.start tag, e) :: dropDescriptions (if tag = .image then 1 else 0) es
    | depth => dropDescriptions (depth + 1) es
  | (.stop, e) :: es =>
    match depth with
    | 0 | 1 => (.stop, e) :: dropDescriptions 0 es
    | depth + 1 => dropDescriptions depth es
  | x :: es =>
    match depth with
    | 0 => x :: dropDescriptions 0 es
    | depth => dropDescriptions depth es

end MarkVeil.Markdown

namespace MarkVeil.Token

open MarkVeil.Text
open MarkVeil.Markdown (Event Tag WellNested dropDescriptions)

/-! ## Nested streams -/

def Kind.inlineClose? : Kind → Option Kind
  | .emOpen => some .emClose
  | .strongOpen => some .strongClose
  | .strikeOpen => some .strikeClose
  | .linkOpen => some .linkClose
  | _ => none

def Kind.blockClose? : Kind → Option Kind
  | .paragraphOpen => some .paragraphClose
  | .headingOpen => some .headingClose
  | .blockquoteOpen => some .blockquoteClose
  | .bulletListOpen => some .bulletListClose
  | .orderedListOpen => some .orderedListClose
  | .listItemOpen => some .listItemClose
  | _ => none

def Kind.isInlineLeaf : Kind → Bool
  | .text | .softBreak | .hardBreak | .codeInline | .htmlInline => true
  | _ => false

def Kind.isBlockLeaf : Kind → Bool
  | .fence | .codeBlock | .htmlBlock | .hr => true
  | _ => false

/-- two tokens around an element: neither has children, and they agree on tag and markup -/
structure Encloses (o c : Node) : Prop where
  opening : o.children = []
  closing : c.children = []
  tag : c.tag = o.tag
  markup : c.markup = o.markup

/-- properly nested inline tokens; the children of an image are such tokens again -/
inductive InlineStream : List Node → Prop
  | nil : InlineStream []
  | leaf {n : Node} {ns : List Node} (kind : n.kind.isInlineLeaf = true) (children : n.children = [])
      (rest : InlineStream ns) : InlineStream (n :: ns)
  | image {n : Node} {ns : List Node} (kind : n.kind = .image) (children : InlineStream n.children)
      (rest : InlineStream ns) : InlineStream (n :: ns)
  | element {o c : Node} {body ns : List Node} (kind : o.kind.inlineClose? = some c.kind) (ends : Encloses o c)
      (inside : InlineStream body) (rest : InlineStream ns) : InlineStream (o :: (body ++ c :: ns))

/-- properly nested block tokens; a token that closes is on the last line of the one that opens -/
inductive BlockStream : List Node → Prop
  | nil : BlockStream []
  | leaf {n : Node} {ns : List Node} (kind : n.kind.isBlockLeaf = true) (children : n.children = [])
      (rest : BlockStream ns) : BlockStream (n :: ns)
  | inline {n : Node} {ns : List Node} (kind : n.kind = .inline) (nonempty : n.children ≠ [])
      (children : InlineStream n.children) (rest : BlockStream ns) : BlockStream (n :: ns)
  | element {o c : Node} {body ns : List Node} (kind : o.kind.blockClose? = some c.kind) (ends : Encloses o c)
      (span : ∃ span, o.span? = some span ∧ c.span? = some (LineSpan.line span.last)) (inside : BlockStream body)
      (rest : BlockStream ns) : BlockStream (o :: (body ++ c :: ns))

variable {src : Source} {n o c : Node} {ns ms : List Node} {st : Stream} {e : Extent}
  {es body body' : List (Event × Extent)}

theorem InlineStream.append (h : InlineStream ns) (hm : InlineStream ms) : InlineStream (ns ++ ms) := by
  induction h with
  | nil => exact hm
  | leaf kind children _ ih => exact .leaf kind children ih
  | image kind children _ _ ih => exact .image kind children ih
  | element kind ends inside _ _ ih =>
    rw [List.cons_append, List.append_assoc, List.cons_append]
    exact .element kind ends inside ih

theorem BlockStream.append (h : BlockStream ns) (hm : BlockStream ms) : BlockStream (ns ++ ms) := by
  induction h with
  | nil => exact hm
  | leaf kind children _ ih => exact .leaf kind children ih
  | inline kind nonempty children _ ih => exact .inline kind nonempty children ih
  | element kind ends span inside _ _ ih =>
    rw [List.cons_append, List.append_assoc, List.cons_append]
    exact .element kind ends span inside ih

/-! ## What events make is nested -/

theorem childless_leafToken {x : Event × Extent} (h : leafToken? src x = some n) :
    n.kind.isInlineLeaf = true ∧ n.children = [] := by
  obtain ⟨ev, e⟩ := x
  cases ev <;> simp only [leafToken?, Option.some.injEq, reduceCtorEq] at h <;> subst h <;> exact ⟨rfl, rfl⟩

theorem encloses_inlineTokens {tag : Tag} (h : inlineTokens? src e tag = some (o, c)) :
    o.kind.inlineClose? = some c.kind ∧ Encloses o c := by
  cases tag <;> simp only [inlineTokens?, Option.some.injEq, reduceCtorEq] at h
  case stress kind =>
    obtain ⟨rfl, rfl⟩ := Prod.mk.inj h
    exact ⟨by cases kind <;> rfl, rfl, rfl, rfl, rfl⟩
  case link form =>
    obtain ⟨rfl, rfl⟩ := Prod.mk.inj h
    exact ⟨rfl, rfl, rfl, rfl, rfl⟩

theorem Makes.nested (h : Makes src es ns) : InlineStream ns := by
  induction h with
  | nil => exact .nil
  | append _ _ ihFirst ihRest => exact ihFirst.append ihRest
  | leaf h =>
    obtain ⟨hk, hn⟩ := childless_leafToken h
    exact .leaf hk hn .nil
  | silent e => exact .nil
  | element h _ ih =>
    obtain ⟨hk, hends⟩ := encloses_inlineTokens h
    exact .element hk hends ih .nil
  | image _ ih => exact .image rfl ih .nil
  | ignored _ ih => exact ih

namespace Stream

/-- what is pending is nested -/
def Pends (st : Stream) : Prop := InlineStream st.inlines.reverse

/-- a writer appends nested blocks and leaves what is pending nested -/
def Nests (write : Stream → Stream) : Prop :=
  ∀ st : Stream, st.Pends → ∃ ns, (write st).blocks = ns.reverse ++ st.blocks ∧ BlockStream ns ∧ (write st).Pends

variable {write write' : Stream → Stream}

theorem nests_id : Nests id := fun _ h => ⟨[], rfl, .nil, h⟩

/-- one writer after another -/
theorem Nests.comp (h : Nests write) (h' : Nests write') : Nests (write' ∘ write) := by
  intro st hst
  obtain ⟨ns, hns, hnested, hpends⟩ := h st hst
  obtain ⟨ms, hms, hnested', hpends'⟩ := h' (write st) hpends
  refine ⟨ns ++ ms, ?_, hnested.append hnested', hpends'⟩
  rw [Function.comp_apply, hms, hns, List.reverse_append, List.append_assoc]

theorem pends_flush (st : Stream) : st.flush.Pends := by
  rw [Pends, inlines_flush]
  exact .nil

theorem nests_flush : Nests flush := by
  intro st hst
  unfold flush
  cases hpending : st.inlines with
  | nil => exact ⟨[], rfl, .nil, hst⟩
  | cons n ns =>
    rw [Pends, hpending] at hst
    exact ⟨[_], rfl, .inline rfl (by simp) hst .nil, .nil⟩

theorem nests_inline (h : InlineStream ns) : Nests (inline ns) := by
  intro st hst
  refine ⟨[], rfl, .nil, ?_⟩
  rw [Pends, inline, List.reverse_append, List.reverse_reverse]
  exact InlineStream.append hst h

/-- a block token that stands alone -/
theorem nests_block (hk : n.kind.isBlockLeaf = true) (hn : n.children = []) : Nests (block n) := by
  intro st hst
  obtain ⟨ns, hns, hnested, hpends⟩ := nests_flush st hst
  refine ⟨ns ++ [n], ?_, hnested.append (.leaf hk hn .nil), hpends⟩
  simp [block, hns]

/-- a block token that stands alone, written behind the others -/
theorem nests_append (hk : n.kind.isBlockLeaf = true) (hn : n.children = []) : Nests (append n) := by
  intro st hst
  exact ⟨[n], rfl, .leaf hk hn .nil, hst⟩

/-- **An element around nested blocks is nested.** -/
theorem nests_pair {opening closing : Kind} (hk : opening.blockClose? = some closing) (span : LineSpan)
    (markup : List Char) (tag : String) (h : Nests write) : Nests (pair opening closing span markup tag write) := by
  intro st hst
  obtain ⟨before, hbefore, hnested, -⟩ := nests_flush st hst
  -- the element begins with nothing pending
  have hopened : (st.block { kind := opening, span? := span, markup := String.ofList markup, tag }).Pends :=
    st.pends_flush
  obtain ⟨body, hbody, hinside, hpends⟩ := (h.comp nests_flush) _ hopened
  rw [Function.comp_apply] at hbody hpends
  refine ⟨before ++ _ :: (body ++ _ :: []), ?_,
    hnested.append (.element (o := { kind := opening, span? := span, markup := String.ofList markup, tag })
      (c := { kind := closing, span? := LineSpan.line span.last, markup := String.ofList markup, tag })
      hk ⟨rfl, rfl, rfl, rfl⟩ ⟨span, rfl, rfl⟩ hinside .nil), hpends⟩
  simp only [pair, block, hbefore] at hbody ⊢
  simp [hbody]

end Stream

theorem closes_blockShape {tag : Tag} {opening closing : Kind} {name : String} {markup : List Char}
    (h : blockShape? src e tag = some (opening, closing, name, markup)) : opening.blockClose? = some closing := by
  cases tag <;> simp only [blockShape?, Option.some.injEq, Prod.mk.injEq, reduceCtorEq] at h <;>
    obtain ⟨rfl, rfl, -, -⟩ := h <;> rfl

theorem childless_literalToken {tag : Tag} (h : literalToken? src e tag = some n) :
    n.kind.isBlockLeaf = true ∧ n.children = [] := by
  cases tag <;> simp only [literalToken?, Option.some.injEq, reduceCtorEq] at h <;> subst h <;> exact ⟨rfl, rfl⟩

/-- **What events of blocks write is nested.** -/
theorem Writes.nests {write : Bool → Stream → Stream} {note : Option String → Option String}
    (h : Writes src es write note) : ∀ literal, Stream.Nests (write literal) := by
  induction h with
  | nil => exact fun _ => Stream.nests_id
  | append _ _ ihFirst ihRest => exact fun literal => (ihFirst literal).comp (ihRest literal)
  | text h =>
    obtain ⟨-, hleaf, -⟩ := step_text h
    intro literal
    cases literal with
    | true => exact Stream.nests_id
    | false => exact Stream.nests_inline (Makes.leaf hleaf).nested
  | inline h => exact fun _ => Stream.nests_inline h.makes.nested
  | rule e => exact fun _ => Stream.nests_block rfl rfl
  | block h _ ih => exact fun _ => Stream.nests_pair (closes_blockShape h) _ _ _ (ih false)
  | literal h _ ih =>
    obtain ⟨hk, hn⟩ := childless_literalToken h
    exact fun _ => (Stream.nests_flush.comp (ih true)).comp (Stream.nests_append hk hn)
  | ignored _ ih => exact fun _ => ih false

theorem ofEvents_nested (h : WellNested es) : BlockStream (ofEvents src es).children := by
  obtain ⟨write, note, hwrites⟩ := exists_writes src h
  obtain ⟨ns, hns, hnested, -⟩ := ((hwrites.nests false).comp Stream.nests_flush) ⟨[], []⟩ .nil
  rw [Function.comp_apply, List.append_nil] at hns
  rw [hwrites.ofEvents, hns, List.reverse_reverse]
  exact hnested

/-! ## Descriptions of images -/

mutual

/-- a token without the tokens of images' descriptions below it -/
def Node.undescribed : Node → Node
  | ⟨kind, span?, markup, tag, info?, content?, children⟩ =>
    ⟨kind, span?, markup, tag, info?, content?, if kind = .image then [] else undescribedAll children⟩

def undescribedAll : List Node → List Node
  | [] => []
  | n :: ns => n.undescribed :: undescribedAll ns

end

theorem undescribedAll_eq (ns : List Node) : undescribedAll ns = ns.map Node.undescribed := by
  induction ns with
  | nil => rfl
  | cons n ns ih => rw [undescribedAll, ih, List.map_cons]

theorem Node.span?_undescribed (n : Node) : n.undescribed.span? = n.span? := by cases n; rfl

theorem Node.undescribed_eq (hn : n.children = []) : n.undescribed = n := by
  obtain ⟨kind, span?, markup, tag, info?, content?, children⟩ := n
  obtain rfl : children = [] := hn
  simp [Node.undescribed, undescribedAll]

theorem undescribedAll_leaf (hn : n.children = []) : undescribedAll [n] = [n] := by
  rw [undescribedAll, undescribedAll, Node.undescribed_eq hn]

theorem undescribedAll_pair (ho : o.children = []) (hc : c.children = []) (ns : List Node) :
    undescribedAll (o :: (ns ++ [c])) = o :: (undescribedAll ns ++ [c]) := by
  simp [undescribedAll_eq, Node.undescribed_eq ho, Node.undescribed_eq hc]

/-- in an image nothing is left -/
theorem Makes.dropped (h : Makes src es ns) :
    ∀ depth rest, dropDescriptions (depth + 1) (es ++ rest) = dropDescriptions (depth + 1) rest := by
  have haround : ∀ {tag : Tag} {e e' : Extent} {body : List (Event × Extent)},
      (∀ depth rest, dropDescriptions (depth + 1) (body ++ rest) = dropDescriptions (depth + 1) rest) →
        ∀ depth rest, dropDescriptions (depth + 1) (((.start tag, e) :: (body ++ [(.stop, e')])) ++ rest) =
          dropDescriptions (depth + 1) rest := by
    intro tag e e' body hbody depth rest
    rw [List.cons_append, List.append_assoc]
    exact hbody (depth + 1) _
  induction h with
  | nil => exact fun _ _ => rfl
  | append _ _ ihFirst ihRest =>
    intro depth rest
    rw [List.append_assoc, ihFirst, ihRest]
  | @leaf x n h =>
    obtain ⟨ev, e⟩ := x
    cases ev <;> first | exact fun _ _ => rfl | cases h
  | silent e => exact fun _ _ => rfl
  | element _ _ ih => exact haround ih
  | image _ ih => exact haround ih
  | ignored _ ih => exact haround ih

/-- outside of images an element stays, and so does what is left of its inside -/
theorem dropDescriptions_around {tag : Tag} (htag : tag ≠ .image) {e' : Extent}
    (hbody : ∀ rest, dropDescriptions 0 (body ++ rest) = body' ++ dropDescriptions 0 rest) (rest : List (Event × Extent)) :
    dropDescriptions 0 (((.start tag, e) :: (body ++ [(.stop, e')])) ++ rest) =
      ((.start tag, e) :: (body' ++ [(.stop, e')])) ++ dropDescriptions 0 rest := by
  rw [List.cons_append, List.append_assoc, dropDescriptions, if_neg htag, hbody]
  simp [dropDescriptions]

theorem dropDescriptions_image {e' : Extent} (h : Makes src body ns) (rest : List (Event × Extent)) :
    dropDescriptions 0 (((.start .image, e) :: (body ++ [(.stop, e')])) ++ rest) =
      [(.start .image, e), (.stop, e')] ++ dropDescriptions 0 rest := by
  rw [List.cons_append, List.append_assoc, dropDescriptions, if_pos rfl, h.dropped]
  rfl

theorem dropDescriptions_leaf {x : Event × Extent} (h : leafToken? src x = some n) (rest : List (Event × Extent)) :
    dropDescriptions 0 ([x] ++ rest) = [x] ++ dropDescriptions 0 rest := by
  obtain ⟨ev, e⟩ := x
  cases ev <;> first | rfl | cases h

theorem inlineTokens_ne_image {tag : Tag} (h : inlineTokens? src e tag = some (o, c)) : tag ≠ .image := by
  rintro rfl
  cases h

theorem undescribed_element {tag : Tag} {e' : Extent} (h : inlineTokens? src e tag = some (o, c))
    (hbody : ∃ body', Makes src body' (undescribedAll ns) ∧
      ∀ rest, dropDescriptions 0 (body ++ rest) = body' ++ dropDescriptions 0 rest) :
    ∃ es', Solid src es' (undescribedAll (o :: (ns ++ [c]))) ∧ ∀ rest,
      dropDescriptions 0 (((.start tag, e) :: (body ++ [(.stop, e')])) ++ rest) = es' ++ dropDescriptions 0 rest := by
  obtain ⟨body', hinside, hdrop⟩ := hbody
  obtain ⟨-, hends⟩ := encloses_inlineTokens h
  refine ⟨_, ?_, dropDescriptions_around (inlineTokens_ne_image h) hdrop⟩
  rw [undescribedAll_pair hends.opening hends.closing]
  exact .element h hinside

/-- **Without the events inside images the tokens are the same, but for the descriptions.** -/
theorem Makes.undescribed (h : Makes src es ns) :
    ∃ es', Makes src es' (undescribedAll ns) ∧
      ∀ rest, dropDescriptions 0 (es ++ rest) = es' ++ dropDescriptions 0 rest := by
  induction h with
  | nil => exact ⟨[], .nil, fun _ => rfl⟩
  | append _ _ ihFirst ihRest =>
    obtain ⟨es, hfirst, hdrop⟩ := ihFirst
    obtain ⟨es', hrest, hdrop'⟩ := ihRest
    refine ⟨es ++ es', ?_, fun rest => ?_⟩
    · rw [undescribedAll_eq, List.map_append, ← undescribedAll_eq, ← undescribedAll_eq]
      exact .append hfirst hrest
    · rw [List.append_assoc, hdrop, hdrop', List.append_assoc]
  | @leaf x n h =>
    refine ⟨[x], ?_, dropDescriptions_leaf h⟩
    rw [undescribedAll_leaf (childless_leafToken h).2]
    exact .leaf h
  | silent e => exact ⟨[(.other, e)], .silent e, fun _ => rfl⟩
  | element h _ ih =>
    obtain ⟨es', helement, hdrop⟩ := undescribed_element h ih
    exact ⟨es', helement.makes, hdrop⟩
  | image inside _ => exact ⟨_, .image .nil, dropDescriptions_image inside⟩
  | ignored _ ih =>
    obtain ⟨body', hinside, hdrop⟩ := ih
    have htag : Tag.other ≠ .image := by decide
    exact ⟨_, .ignored hinside, dropDescriptions_around htag hdrop⟩

theorem Solid.undescribed (h : Solid src es ns) :
    ∃ es', Solid src es' (undescribedAll ns) ∧
      ∀ rest, dropDescriptions 0 (es ++ rest) = es' ++ dropDescriptions 0 rest := by
  cases h with
  | @leaf x n h hx =>
    refine ⟨[x], ?_, dropDescriptions_leaf h⟩
    rw [undescribedAll_leaf (childless_leafToken h).2]
    exact .leaf h hx
  | silent e => exact ⟨[(.other, e)], .silent e, fun _ => rfl⟩
  | element h inside => exact undescribed_element h inside.undescribed
  | image inside => exact ⟨_, .image .nil, dropDescriptions_image inside⟩

namespace Stream

def undescribed (st : Stream) : Stream := ⟨undescribedAll st.blocks, undescribedAll st.inlines⟩

theorem hull_undescribed (ns : List Node) : hull (undescribedAll ns) = hull ns := by
  induction ns with
  | nil => rfl
  | cons n ns ih => rw [undescribedAll, hull, hull, Node.span?_undescribed, ih]

theorem flush_undescribed (st : Stream) : st.undescribed.flush = st.flush.undescribed := by
  obtain ⟨blocks, inlines⟩ := st
  cases inlines with
  | nil => rfl
  | cons n ns =>
    have hhull := hull_undescribed (n :: ns)
    simp only [undescribed, undescribedAll, flush] at hhull ⊢
    rw [hhull]
    simp [Node.undescribed, undescribedAll_eq]

theorem block_undescribed (n : Node) (st : Stream) : st.undescribed.block n.undescribed = (st.block n).undescribed := by
  rw [block, block, flush_undescribed]
  rfl

theorem inline_undescribed (ns : List Node) (st : Stream) :
    st.undescribed.inline (undescribedAll ns) = (st.inline ns).undescribed := by
  simp [undescribed, inline, undescribedAll_eq]

/-- a writer that writes the same without the tokens of images' descriptions -/
def Undescribes (write write' : Stream → Stream) : Prop := ∀ st : Stream, write' st.undescribed = (write st).undescribed

/-- one writer after another -/
theorem Undescribes.comp {first second first' second' : Stream → Stream} (h : Undescribes first first')
    (h' : Undescribes second second') : Undescribes (second ∘ first) (second' ∘ first') := by
  intro st
  rw [Function.comp_apply, h, h', Function.comp_apply]

theorem undescribes_inline {ns ms : List Node} (h : ms = undescribedAll ns) : Undescribes (inline ns) (inline ms) := by
  intro st
  rw [h, inline_undescribed]

theorem undescribes_block {n : Node} (hn : n.children = []) : Undescribes (block n) (block n) := by
  intro st
  rw [← block_undescribed, Node.undescribed_eq hn]

theorem undescribes_append {n : Node} (hn : n.children = []) : Undescribes (append n) (append n) := by
  intro st
  have hself := Node.undescribed_eq hn
  rw [append, undescribed, append, undescribed, undescribedAll, hself]

theorem undescribes_pair {write write' : Stream → Stream} (opening closing : Kind) (span : LineSpan)
    (markup : List Char) (tag : String) (h : Undescribes write write') :
    Undescribes (pair opening closing span markup tag write) (pair opening closing span markup tag write') := by
  intro st
  rw [pair, undescribes_block rfl, h, undescribes_block rfl, pair]

end Stream

theorem Writes.undescribed {write : Bool → Stream → Stream} {note : Option String → Option String}
    (h : Writes src es write note) : ∃ es' write', Writes src es' write' note ∧
      (∀ rest, dropDescriptions 0 (es ++ rest) = es' ++ dropDescriptions 0 rest) ∧
      ∀ literal, Stream.Undescribes (write literal) (write' literal) := by
  induction h with
  | nil => exact ⟨[], _, .nil, fun _ => rfl, fun _ _ => rfl⟩
  | append _ _ ihFirst ihRest =>
    obtain ⟨es, write, hfirst, hdrop, hwrite⟩ := ihFirst
    obtain ⟨es', write', hrest, hdrop', hwrite'⟩ := ihRest
    refine ⟨es ++ es', _, .append hfirst hrest, fun rest => ?_, fun literal => (hwrite literal).comp (hwrite' literal)⟩
    rw [List.append_assoc, hdrop, hdrop', List.append_assoc]
  | @text x t n h =>
    obtain ⟨-, hleaf, -⟩ := step_text h
    have hself := undescribedAll_leaf (childless_leafToken hleaf).2
    refine ⟨[x], _, .text h, dropDescriptions_leaf hleaf, fun literal => ?_⟩
    cases literal with
    | true => exact fun _ => rfl
    | false => exact Stream.undescribes_inline hself.symm
  | inline h =>
    obtain ⟨es', hsolid, hdrop⟩ := h.undescribed
    exact ⟨es', _, .inline hsolid, hdrop, fun _ => Stream.undescribes_inline rfl⟩
  | rule e => exact ⟨_, _, .rule e, fun _ => rfl, fun _ => Stream.undescribes_block rfl⟩
  | @block tag e e' opening closing name markup body write note h _ ih =>
    obtain ⟨body', write', hinside, hdrop, hwrite⟩ := ih
    exact ⟨_, _, .block h hinside, dropDescriptions_around (blockShape_ne_image h) hdrop,
      fun _ => Stream.undescribes_pair _ _ _ _ _ (hwrite false)⟩
  | @literal tag e e' n body write note h _ ih =>
    obtain ⟨body', write', hinside, hdrop, hwrite⟩ := ih
    have happend := Stream.undescribes_append (n := { n with content? := note n.content? }) (childless_literalToken h).2
    have hflush : Stream.Undescribes Stream.flush Stream.flush := fun st => st.flush_undescribed
    exact ⟨_, _, .literal h hinside, dropDescriptions_around (literalToken_ne_image h) hdrop,
      fun _ => (hflush.comp (hwrite true)).comp happend⟩
  | ignored _ ih =>
    obtain ⟨body', write', hinside, hdrop, hwrite⟩ := ih
    have htag : Tag.other ≠ .image := by decide
    exact ⟨_, _, .ignored hinside, dropDescriptions_around htag hdrop, fun _ => hwrite false⟩

/-- **Outside of images nothing comes of their descriptions.** -/
theorem ofEvents_undescribed (h : WellNested es) :
    ofEvents src (dropDescriptions 0 es) = (ofEvents src es).undescribed := by
  obtain ⟨write, note, hwrites⟩ := exists_writes src h
  obtain ⟨es', write', hwrites', hdrop, hwrite⟩ := hwrites.undescribed
  have hevents : dropDescriptions 0 es = es' := by
    have hnil := hdrop []
    rwa [dropDescriptions, List.append_nil, List.append_nil] at hnil
  have hempty : Stream.undescribed ⟨[], []⟩ = ⟨[], []⟩ := rfl
  have hblocks := hwrite false ⟨[], []⟩
  rw [hempty] at hblocks
  rw [hevents, hwrites'.ofEvents, hwrites.ofEvents, hblocks, Stream.flush_undescribed, Node.undescribed,
    if_neg (by decide), undescribedAll_eq, Stream.undescribed, undescribedAll_eq, List.map_reverse]

/-! ## Trees -/

/-- the tree that events make is nested -/
structure NestedTree (src : Source) (es : List (Event × Extent)) (tree : Node) : Prop where
  document : tree.kind = .document
  blocks : BlockStream tree.children
  /-- the tokens of an image's description are below the image and nowhere else -/
  descriptions : tree.undescribed = ofEvents src (dropDescriptions 0 es)

theorem nestedTree_ofEvents (src : Source) (h : WellNested es) : NestedTree src es (ofEvents src es) :=
  ⟨rfl, ofEvents_nested h, (ofEvents_undescribed h).symm⟩

/-- **The tree that well-nested events make is nested**, and so is the tree of every text. -/
theorem parse_nested (text : List Char) :
    (∀ es, WellNested es → NestedTree (.ofText text) es (ofEvents (.ofText text) es)) ∧
      NestedTree (.ofText text) (Markdown.Document.events text) (parse text) :=
  ⟨fun _ => nestedTree_ofEvents _, nestedTree_ofEvents _ (Markdown.events_wellNested text)⟩

/-- a link in a quote around an image with an emphasis in its description, and a block of code in an element that has no
tokens -/
theorem parse_nested_description :
    let s := "> [![*a*](b)](c)\n~~~\nd".toList
    let es : List (Event × Extent) :=
      [(.start .quote, ⟨0, 17⟩), (.start .paragraph, ⟨2, 17⟩), (.start (.link .inline), ⟨2, 16⟩),
        (.start .image, ⟨3, 12⟩), (.start (.stress .emphasis), ⟨5, 8⟩), (.text ['a'], ⟨6, 7⟩), (.stop, ⟨5, 8⟩),
        (.stop, ⟨3, 12⟩), (.stop, ⟨2, 16⟩), (.stop, ⟨2, 17⟩), (.stop, ⟨0, 17⟩), (.start .other, ⟨17, 22⟩),
        (.start (.fence []), ⟨17, 22⟩), (.text ['d'], ⟨21, 22⟩), (.stop, ⟨17, 22⟩), (.stop, ⟨17, 22⟩)]
    WellNested es ∧ NestedTree (.ofText s) es (ofEvents (.ofText s) es) ∧
      (ofEvents (.ofText s) es).children.map Node.kind =
        [.blockquoteOpen, .paragraphOpen, .inline, .paragraphClose, .blockquoteClose, .fence] ∧
      (Node.preorderAll (ofEvents (.ofText s) es).children).map Node.kind =
        [.blockquoteOpen, .paragraphOpen, .inline, .linkOpen, .image, .emOpen, .text, .emClose, .linkClose,
          .paragraphClose, .blockquoteClose, .fence] := by
  intro s es
  have hnested : WellNested es := by decide
  exact ⟨hnested, (parse_nested s).1 es hnested, by decide +kernel, by decide +kernel⟩

end MarkVeil.Token
