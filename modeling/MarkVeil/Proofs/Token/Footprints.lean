/-
Which token stands for what, and on which lines.

`Footprint` is what one token stands for: its kind, its element, and the first and last byte of the element whose lines
it covers. `footprints` lists them for events, with a stack of the elements that are open, so that a stop is that of the
element that started last. Whatever the events are, every token that the builder has or will write for a stop stands for
a footprint, and a container of inline tokens covers the lines of these (`Keeps`): each step keeps this (`step_keeps`),
and so does a run (`run_keeps`).
-/
import MarkVeil.Proofs.Token.BlockEvents
import MarkVeil.Proofs.Token.Lines
import MarkVeil.Proofs.Token.Preorder

namespace MarkVeil.Token

open MarkVeil.Text
open MarkVeil.Markdown (Event Stress Tag)

/-- neither the document nor a container of inline tokens -/
def Kind.isElement (k : Kind) : Bool := k != .document && k != .inline

def Kind.isLiteral : Kind → Bool
  | .fence | .codeBlock | .htmlBlock => true
  | _ => false

/-- what a token stands for -/
structure Footprint where
  kind : Kind
  /-- the whole element -/
  extent : Extent
  /-- the first and the last byte whose lines the token covers -/
  first : Nat
  last : Nat
  isElement : kind.isElement = true
  first_le : first ≤ last

namespace Footprint

def whole (kind : Kind) (e : Extent) (h : kind.isElement = true) : Footprint :=
  ⟨kind, e, e.start, lastByte e, h, Nat.le_max_right _ _⟩

def opening (kind : Kind) (e : Extent) (h : kind.isElement = true) : Footprint :=
  ⟨kind, e, e.start, e.start, h, le_rfl⟩

def closing (kind : Kind) (e : Extent) (h : kind.isElement = true) : Footprint :=
  ⟨kind, e, lastByte e, lastByte e, h, le_rfl⟩

/-- the token covers the lines from the first to the last byte, and a text token holds the text of its element if that
lies in the text, between two characters -/
structure Stands (s : List Char) (f : Footprint) (n : Node) : Prop where
  kind : n.kind = f.kind
  lines : ∃ i j, n.span? = some ⟨i, j + 1⟩ ∧ (LineIndex.ofText s).Contains i f.first ∧
    (LineIndex.ofText s).Contains j f.last
  text : f.kind = .text → ∀ t, slice? s f.extent.start f.extent.stop = some t → n.content? = some (String.ofList t)

end Footprint

/-! ## The footprints of events -/

def stressKinds : Stress → Kind × Kind
  | .emphasis => (.emOpen, .emClose)
  | .strong => (.strongOpen, .strongClose)
  | .strike => (.strikeOpen, .strikeClose)

theorem isElement_stressKinds (k : Stress) :
    (stressKinds k).1.isElement = true ∧ (stressKinds k).2.isElement = true := by
  cases k <;> decide

/-- what the first token of an element stands for; a block of code or HTML has none before its stop -/
def openingFootprint? (e : Extent) : Tag → Option Footprint
  | .paragraph => some (.whole .paragraphOpen e rfl)
  | .heading _ => some (.whole .headingOpen e rfl)
  | .quote => some (.whole .blockquoteOpen e rfl)
  | .orderedList => some (.whole .orderedListOpen e rfl)
  | .bulletList => some (.whole .bulletListOpen e rfl)
  | .item => some (.whole .listItemOpen e rfl)
  | .stress kind => some (.opening (stressKinds kind).1 e (isElement_stressKinds kind).1)
  | .link _ => some (.whole .linkOpen e rfl)
  | .image => some (.whole .image e rfl)
  | .fence _ | .indented | .html | .other => none

/-- what the token at the stop of an element stands for; that of an image stands where it starts -/
def closingFootprint? (e : Extent) : Tag → Option Footprint
  | .paragraph => some (.closing .paragraphClose e rfl)
  | .heading _ => some (.closing .headingClose e rfl)
  | .quote => some (.closing .blockquoteClose e rfl)
  | .orderedList => some (.closing .orderedListClose e rfl)
  | .bulletList => some (.closing .bulletListClose e rfl)
  | .item => some (.closing .listItemClose e rfl)
  | .stress kind => some (.closing (stressKinds kind).2 e (isElement_stressKinds kind).2)
  | .link _ => some (.closing .linkClose e rfl)
  | .fence _ => some (.whole .fence e rfl)
  | .indented => some (.whole .codeBlock e rfl)
  | .html => some (.whole .htmlBlock e rfl)
  | .image | .other => none

def isLiteralTag : Tag → Bool
  | .fence _ | .indented | .html => true
  | _ => false

/-- directly in a block of code or HTML; `opened` are the open elements, innermost first -/
def isInLiteral (opened : List (Tag × Extent)) : Bool := opened.head?.any fun x => isLiteralTag x.1

/-- the elements that are open after an event, innermost first -/
def openAfter (opened : List (Tag × Extent)) : Event × Extent → List (Tag × Extent)
  | (.start tag, e) => (tag, e) :: opened
  | (.stop, _) => opened.tail
  | _ => opened

/-- what the token of an event stands for, if it has one -/
def footprint? (opened : List (Tag × Extent)) : Event × Extent → Option Footprint
  | (.start tag, e) => openingFootprint? e tag
  | (.stop, _) => opened.head?.bind fun x => closingFootprint? x.2 x.1
  | (.text _, e) => if isInLiteral opened then none else some (.whole .text e rfl)
  | (.code _, e) => some (.whole .codeInline e rfl)
  | (.html _, e) => if isInLiteral opened then none else some (.whole .htmlInline e rfl)
  | (.inlineHtml _, e) => some (.whole .htmlInline e rfl)
  | (.softBreak, e) => some (.whole .softBreak e rfl)
  | (.hardBreak, e) => some (.whole .hardBreak e rfl)
  | (.rule, e) => some (.whole .hr e rfl)
  | (.other, _) => none

def footprintsIn (opened : List (Tag × Extent)) : List (Event × Extent) → List Footprint
  | [] => []
  | x :: es => (footprint? opened x).toList ++ footprintsIn (openAfter opened x) es

/-- what the tokens of events stand for, event by event -/
def footprints (es : List (Event × Extent)) : List Footprint := footprintsIn [] es

variable {s : List Char} {m n o c : Node} {ns : List Node} {f g : Footprint} {fs gs : List Footprint} {e : Extent}
  {tag : Tag} {opened : List (Tag × Extent)} {b : Builder} {p : Pending} {ps : List Pending}

/-! ## One token -/

namespace Footprint

/-- a token covers the lines of the first and last byte -/
theorem stands_of_lines (hk : n.kind = f.kind)
    (hspan : n.span? = some ⟨(LineIndex.ofText s).lineOf f.first, (LineIndex.ofText s).lineOf f.last + 1⟩)
    (ht : f.kind ≠ .text) : f.Stands s n :=
  ⟨hk, ⟨_, _, hspan, LineIndex.lineOf_eq_iff.1 rfl, LineIndex.lineOf_eq_iff.1 rfl⟩, fun h => absurd h ht⟩

theorem stands_whole {kind : Kind} {h : kind.isElement = true} (hk : n.kind = kind)
    (hspan : n.span? = some (spanOf (.ofText s) e)) (ht : kind ≠ .text) : (whole kind e h).Stands s n := by
  refine stands_of_lines hk ?_ ht
  rw [hspan, spanOf_eq]
  rfl

theorem stands_opening {kind : Kind} {h : kind.isElement = true} (hk : n.kind = kind)
    (hspan : n.span? = some (.line ((LineIndex.ofText s).lineOf e.start))) (ht : kind ≠ .text) :
    (opening kind e h).Stands s n := by
  refine stands_of_lines hk ?_ ht
  rw [hspan, line_eq]
  rfl

theorem stands_closing {kind : Kind} {h : kind.isElement = true} (hk : n.kind = kind)
    (hspan : n.span? = some (.line (lastLineOf (.ofText s) e))) (ht : kind ≠ .text) :
    (closing kind e h).Stands s n := by
  refine stands_of_lines hk ?_ ht
  rw [hspan, line_eq]
  rfl

/-- a text token has what is written, whatever the event says -/
theorem stands_text {h : Kind.text.isElement = true} (t : List Char) :
    (whole .text e h).Stands s (textToken (.ofText s) t e) := by
  have hspan := congrArg some (spanOf_eq (.ofText s) e)
  refine ⟨rfl, ⟨_, _, hspan, LineIndex.lineOf_eq_iff.1 rfl, LineIndex.lineOf_eq_iff.1 rfl⟩, ?_⟩
  intro _ u hu
  have hslice : slice? (Source.ofText s).text e.start e.stop = some u := hu
  rw [textToken, hslice]
  rfl

/-- what a token that is not text holds makes no difference, nor what is below it -/
theorem Stands.change (h : f.Stands s n) (hn : n.kind ≠ .text) (hk : m.kind = n.kind) (hspan : m.span? = n.span?) :
    f.Stands s m :=
  ⟨hk.trans h.kind, hspan ▸ h.lines, fun ht => absurd (h.kind.trans ht) hn⟩

theorem Stands.isElement (h : f.Stands s n) : n.kind.isElement = true := h.kind ▸ Footprint.isElement f

/-- **A token that stands for something is on lines of the text.** -/
theorem Stands.bounded (h : f.Stands s n) : Bounded (LineIndex.ofText s).count n := by
  obtain ⟨i, j, hspan, hi, hj⟩ := h.lines
  rw [← LineIndex.lineOf_eq_iff] at hi hj
  have hle := LineIndex.lineOf_mono (LineIndex.ofText s) f.first_le
  have hlt := LineIndex.lineOf_lt_count s f.last
  exact ⟨_, hspan, by simp only; omega, by simp only; omega⟩

end Footprint

/-! ## The tokens of one event -/

theorem stands_leaf {x : Event × Extent} (h : leafToken? (.ofText s) x = some n) :
    ∃ f, f.Stands s n ∧ n.children = [] ∧
      ∀ opened, literalText? (.ofText s) x = none ∨ isInLiteral opened = false →
        footprint? opened x = some f ∧ openAfter opened x = opened := by
  obtain ⟨ev, e⟩ := x
  cases ev <;> simp only [leafToken?, Option.some.injEq, reduceCtorEq] at h <;> subst h
  case text t =>
    refine ⟨.whole .text e rfl, Footprint.stands_text t, rfl, fun opened hx => ⟨?_, rfl⟩⟩
    rw [footprint?, hx.resolve_left (by simp [literalText?])]
    rfl
  case html t =>
    refine ⟨.whole .htmlInline e rfl, Footprint.stands_whole rfl rfl (by decide), rfl, fun opened hx => ⟨?_, rfl⟩⟩
    rw [footprint?, hx.resolve_left (by simp [literalText?])]
    rfl
  all_goals exact ⟨_, Footprint.stands_whole rfl rfl Kind.noConfusion, rfl, fun _ _ => ⟨rfl, rfl⟩⟩

/-- the text of a block of code or HTML is no token -/
theorem footprint?_literal {x : Event × Extent} {t : List Char} (h : literalText? (.ofText s) x = some (t, n))
    (hopened : isInLiteral opened = true) : footprint? opened x = none ∧ openAfter opened x = opened := by
  obtain ⟨ev, e⟩ := x
  cases ev <;> simp only [literalText?, reduceCtorEq] at h <;> exact ⟨by rw [footprint?, hopened]; rfl, rfl⟩

theorem stands_inline (h : inlineTokens? (.ofText s) e tag = some (o, c)) :
    ∃ f g, openingFootprint? e tag = some f ∧ closingFootprint? e tag = some g ∧ f.Stands s o ∧ g.Stands s c ∧
      o.children = [] ∧ c.children = [] ∧ c.kind ≠ .text ∧ isLiteralTag tag = false := by
  cases tag <;> simp only [inlineTokens?, Option.some.injEq, reduceCtorEq] at h
  case stress kind =>
    obtain ⟨rfl, rfl⟩ := Prod.mk.inj h
    have hopening : (stressKinds kind).1 ≠ .text ∧ (stressShape kind).1 = (stressKinds kind).1 := by
      cases kind <;> decide
    have hclosing : (stressKinds kind).2 ≠ .text ∧ (stressShape kind).2.1 = (stressKinds kind).2 := by
      cases kind <;> decide
    exact ⟨_, _, rfl, rfl, Footprint.stands_opening hopening.2 rfl hopening.1,
      Footprint.stands_closing hclosing.2 rfl hclosing.1, rfl, rfl, hclosing.2 ▸ hclosing.1, rfl⟩
  case link form =>
    obtain ⟨rfl, rfl⟩ := Prod.mk.inj h
    exact ⟨_, _, rfl, rfl, Footprint.stands_whole rfl rfl (by decide), Footprint.stands_closing rfl rfl (by decide),
      rfl, rfl, Kind.noConfusion, rfl⟩

theorem stands_block {opening closing : Kind} {name : String} {markup : List Char}
    (h : blockShape? (.ofText s) e tag = some (opening, closing, name, markup)) (mark : String) :
    ∃ f g, openingFootprint? e tag = some f ∧ closingFootprint? e tag = some g ∧
      f.Stands s { kind := opening, span? := spanOf (.ofText s) e, markup := mark, tag := name } ∧
      g.Stands s { kind := closing, span? := LineSpan.line (spanOf (.ofText s) e).last, markup := mark, tag := name } ∧
      closing ≠ .text ∧ isLiteralTag tag = false := by
  rw [last_spanOf]
  cases tag <;> simp only [blockShape?, Option.some.injEq, Prod.mk.injEq, reduceCtorEq] at h <;>
    obtain ⟨rfl, rfl, -, -⟩ := h <;>
    exact ⟨_, _, rfl, rfl, Footprint.stands_whole rfl rfl (by decide), Footprint.stands_closing rfl rfl (by decide),
      by decide, rfl⟩

theorem stands_literal (h : literalToken? (.ofText s) e tag = some n) :
    ∃ g, openingFootprint? e tag = none ∧ closingFootprint? e tag = some g ∧ g.Stands s n ∧ n.kind.isLiteral = true ∧
      n.kind ≠ .text ∧ n.children = [] ∧ isLiteralTag tag = true := by
  cases tag <;> simp only [literalToken?, Option.some.injEq, reduceCtorEq] at h <;> subst h <;>
    exact ⟨_, rfl, rfl, Footprint.stands_whole rfl rfl (by decide), rfl, Kind.noConfusion, rfl, rfl⟩

/-! ## What the builder keeps -/

/-- a token and all below it stand for footprints -/
def Told (s : List Char) (fs : List Footprint) (n : Node) : Prop := ∀ m ∈ n.preorder, ∃ f ∈ fs, f.Stands s m

theorem Told.mono (h : Told s fs n) (hsub : fs ⊆ gs) : Told s gs n := by
  intro m hm
  obtain ⟨f, hf, hstands⟩ := h m hm
  exact ⟨f, hsub hf, hstands⟩

theorem Told.bounded (h : Told s fs n) : Bounded (LineIndex.ofText s).count n := by
  obtain ⟨_, _, hstands⟩ := h n (mem_preorder_self n)
  exact hstands.bounded

theorem told_iff : Told s fs n ↔ (∃ f ∈ fs, f.Stands s n) ∧ ∀ c ∈ n.children, Told s fs c := forall_mem_preorder

/-- a token with nothing below it -/
theorem told_leaf (hn : n.children = []) (hf : f ∈ fs) (hstands : f.Stands s n) : Told s fs n :=
  told_iff.2 ⟨⟨f, hf, hstands⟩, by simp [hn]⟩

/-- what a token that is not text holds makes no difference, and below it may be others -/
theorem Told.change (h : Told s fs n) (hn : n.kind ≠ .text) (hk : m.kind = n.kind) (hspan : m.span? = n.span?)
    (hbelow : ∀ c ∈ m.children, Told s fs c) : Told s fs m := by
  obtain ⟨⟨f, hf, hstands⟩, -⟩ := told_iff.1 h
  exact told_iff.2 ⟨⟨f, hf, hstands.change hn hk hspan⟩, hbelow⟩

/-- a container of inline tokens that covers their lines -/
structure Gathering (s : List Char) (fs : List Footprint) (n : Node) : Prop where
  kind : n.kind = .inline
  hull : ∃ span, n.span? = some span ∧ IsHull span n.children
  children : ∀ m ∈ n.children, Told s fs m

theorem Gathering.mono (h : Gathering s fs n) (hsub : fs ⊆ gs) : Gathering s gs n :=
  ⟨h.kind, h.hull, fun m hm => (h.children m hm).mono hsub⟩

/-- what waits for the stop of an element writes what stands for its last footprint -/
structure Waits (s : List Char) (fs : List Footprint) (p : Pending) (x : Tag × Extent) : Prop where
  literal : p.isLiteral = isLiteralTag x.1
  kind : ∀ n, p.token? (.ofText s) = some n → n.kind ≠ .text
  token : ∀ n, p.token? (.ofText s) = some n → Told s (fs ++ (closingFootprint? x.2 x.1).toList) n

theorem Waits.mono {x : Tag × Extent} (h : Waits s fs p x) (hsub : fs ⊆ gs) : Waits s gs p x :=
  ⟨h.literal, h.kind, fun n hn => (h.token n hn).mono (List.append_subset.2
    ⟨List.Subset.trans hsub (List.subset_append_left _ _), List.subset_append_right _ _⟩)⟩

/-- the tokens that a builder has written, and will write for the open elements, stand for footprints -/
structure Keeps (s : List Char) (opened : List (Tag × Extent)) (fs : List Footprint) (b : Builder) : Prop where
  blocks : ∀ n ∈ b.blocks, Told s fs n ∨ Gathering s fs n
  inline : ∀ n ∈ b.inline?, Gathering s fs n
  pending : List.Forall₂ (Waits s fs) b.pending opened

theorem Keeps.mono (h : Keeps s opened fs b) (hsub : fs ⊆ gs) : Keeps s opened gs b where
  blocks := fun n hn => (h.blocks n hn).imp (·.mono hsub) (·.mono hsub)
  inline := fun n hn => (h.inline n hn).mono hsub
  pending := h.pending.imp fun _ _ hp => hp.mono hsub

theorem keeps_empty (s : List Char) : Keeps s [] [] Builder.empty :=
  ⟨List.forall_mem_nil _, by simp [Builder.empty], .nil⟩

/-- **An image gathers what stands for footprints.** -/
theorem Waits.push {x : Tag × Extent} (h : Waits s fs (.image m) x) (hn : Told s fs n) :
    Waits s fs (.image { m with children := m.children ++ [n] }) x := by
  have hm := h.token m rfl
  refine ⟨h.literal, ?_, ?_⟩ <;> rintro _ ⟨⟩
  · exact h.kind m rfl
  · have hnew := hn.mono (List.subset_append_left fs (closingFootprint? x.2 x.1).toList)
    exact hm.change (h.kind m rfl) rfl rfl (List.forall_mem_append.2 ⟨(told_iff.1 hm).2, List.forall_mem_singleton.2 hnew⟩)

theorem waits_intoImage (h : List.Forall₂ (Waits s fs) ps opened) (hn : Told s fs n) {qs : List Pending}
    (hinto : Builder.intoImage? n ps = some qs) : List.Forall₂ (Waits s fs) qs opened := by
  obtain ⟨front, m, rest, rfl, rfl⟩ := Builder.intoImage?_split hinto
  clear hinto
  induction front generalizing opened with
  | nil =>
    cases h with
    | cons hp hrest => exact .cons (hp.push hn) hrest
  | cons p front ih =>
    cases h with
    | cons hp hrest => exact .cons hp (ih hrest)

/-- **The container grows to the lines of its tokens.** -/
theorem keeps_pushInline (h : Keeps s opened fs b) (hn : Told s fs n) (e : Extent) :
    Keeps s opened fs (b.pushInline (.ofText s) n e) := by
  rw [Builder.pushInline]
  split
  next hinto => exact ⟨h.blocks, h.inline, waits_intoImage h.pending hn hinto⟩
  next =>
    obtain ⟨span, hspan, -⟩ := hn.bounded
    refine ⟨h.blocks, ?_, h.pending⟩
    rw [hspan, Option.getD_some]
    rintro _ ⟨⟩
    cases hc : b.inline? with
    | none =>
      have hself : span.hull span = span := by simp [LineSpan.hull]
      exact ⟨rfl, ⟨span, congrArg some hself, .head hspan (List.forall_mem_nil _)⟩, List.forall_mem_singleton.2 hn⟩
    | some c =>
      obtain ⟨hkind, ⟨all, hall, hhull⟩, hchildren⟩ := h.inline c hc
      refine ⟨hkind, ⟨all.hull span, ?_, ?_⟩, List.forall_mem_append.2 ⟨hchildren, List.forall_mem_singleton.2 hn⟩⟩
      · rw [Option.getD_some, hall]
        rfl
      · have hmore := (hhull.reverse.cons hspan).reverse
        rw [List.reverse_cons, List.reverse_reverse, hull_comm] at hmore
        exact hmore

theorem keeps_flush (h : Keeps s opened fs b) : Keeps s opened fs b.flush :=
  ⟨List.forall_mem_append.2 ⟨fun n hn => .inr (h.inline n (Option.mem_toList.1 hn)), h.blocks⟩,
    by simp [Builder.flush], h.pending⟩

theorem keeps_append (h : Keeps s opened fs b) (hn : Told s fs n) : Keeps s opened fs { b with blocks := n :: b.blocks } :=
  ⟨List.forall_mem_cons.2 ⟨.inl hn, h.blocks⟩, h.inline, h.pending⟩

theorem keeps_pushBlock (h : Keeps s opened fs b) (hn : Told s fs n) : Keeps s opened fs (b.pushBlock n) :=
  keeps_append (keeps_flush h) hn

theorem keeps_await (h : Keeps s opened fs b) (hp : Waits s fs p (tag, e)) :
    Keeps s ((tag, e) :: opened) fs (b.await p) :=
  ⟨h.blocks, h.inline, .cons hp h.pending⟩

/-! ## Steps -/

/-- an element waits for its last token -/
theorem waits_token (hliteral : p.isLiteral = isLiteralTag tag) (hp : p.token? (.ofText s) = some n)
    (hn : n.kind ≠ .text) (hchildren : n.children = []) (hg : closingFootprint? e tag = some g) (hstands : g.Stands s n) :
    Waits s fs p (tag, e) := by
  refine ⟨hliteral, ?_, ?_⟩ <;> intro m hm <;> obtain rfl := Option.some.inj (hp.symm.trans hm)
  · exact hn
  · refine told_leaf hchildren ?_ hstands
    rw [hg]
    exact List.mem_append_right _ List.mem_cons_self

theorem keeps_block {opening closing : Kind} {name : String} {markup : List Char} (h : Keeps s opened fs b)
    (hshape : blockShape? (.ofText s) e tag = some (opening, closing, name, markup)) :
    Keeps s ((tag, e) :: opened) (fs ++ (openingFootprint? e tag).toList) (b.start (.ofText s) tag e) := by
  obtain ⟨f, g, hf, hg, hopen, hclose, htext, htag⟩ := stands_block hshape (String.ofList markup)
  rw [start_block hshape, hf]
  have hmore := h.mono (List.subset_append_left fs [f])
  have hnew : f ∈ fs ++ [f] := List.mem_append_right _ List.mem_cons_self
  exact keeps_await (keeps_pushBlock hmore (told_leaf rfl hnew hopen)) (waits_token htag.symm rfl htext rfl hg hclose)

theorem keeps_literal (h : Keeps s opened fs b) (hn : literalToken? (.ofText s) e tag = some n) :
    Keeps s ((tag, e) :: opened) (fs ++ (openingFootprint? e tag).toList) (b.start (.ofText s) tag e) := by
  obtain ⟨g, hf, hg, hstands, -, htext, hchildren, htag⟩ := stands_literal hn
  rw [start_literal hn, hf, Option.toList_none, List.append_nil]
  exact keeps_await (keeps_flush h) (waits_token htag.symm rfl htext hchildren hg hstands)

theorem keeps_inline (h : Keeps s opened fs b) (hn : inlineTokens? (.ofText s) e tag = some (o, c)) :
    Keeps s ((tag, e) :: opened) (fs ++ (openingFootprint? e tag).toList) (b.start (.ofText s) tag e) := by
  obtain ⟨f, g, hf, hg, hopen, hclose, ho, hc, htext, htag⟩ := stands_inline hn
  obtain ⟨p, -, hliteral, htoken, hstart, -⟩ := start_inline hn
  rw [hstart, hf]
  have hmore := h.mono (List.subset_append_left fs [f])
  have hnew : f ∈ fs ++ [f] := List.mem_append_right _ List.mem_cons_self
  exact keeps_await (keeps_pushInline hmore (told_leaf ho hnew hopen) ⟨0, 0⟩)
    (waits_token (hliteral.trans htag.symm) htoken htext hc hg hclose)

/-- an image has its own footprint before its description's -/
theorem keeps_image (h : Keeps s opened fs b) :
    Keeps s ((.image, e) :: opened) (fs ++ (openingFootprint? e .image).toList) (b.start (.ofText s) .image e) := by
  refine keeps_await (h.mono (List.subset_append_left _ _)) ⟨rfl, ?_, ?_⟩ <;> rintro _ ⟨⟩
  · exact Kind.noConfusion
  · exact told_leaf (f := .whole .image e rfl) rfl (by simp [openingFootprint?])
      (Footprint.stands_whole rfl rfl (by decide))

theorem start_keeps (h : Keeps s opened fs b) (tag : Tag) (e : Extent) :
    Keeps s ((tag, e) :: opened) (fs ++ (openingFootprint? e tag).toList) (b.start (.ofText s) tag e) := by
  cases tag with
  | fence info => exact keeps_literal h rfl
  | indented => exact keeps_literal h rfl
  | html => exact keeps_literal h rfl
  | stress kind => exact keeps_inline h rfl
  | link form => exact keeps_inline h rfl
  | image => exact keeps_image h
  | other =>
    refine keeps_await (h.mono (List.subset_append_left _ _)) ⟨rfl, ?_, ?_⟩ <;> rintro _ ⟨⟩
  | _ => exact keeps_block h rfl

theorem stop_keeps (h : Keeps s opened fs b) (e : Extent) :
    Keeps s opened.tail (fs ++ (footprint? opened (.stop, e)).toList) (b.stop (.ofText s)) := by
  obtain ⟨blocks, inline?, pending⟩ := b
  obtain ⟨hblocks, hinline, hpending⟩ := h
  cases hpending with
  | nil => exact Keeps.mono ⟨hblocks, hinline, .nil⟩ (List.subset_append_left _ _)
  | @cons p x ps opened hp hrest =>
    have hkeeps : Keeps s opened (fs ++ (closingFootprint? x.2 x.1).toList) ⟨blocks, inline?, ps⟩ :=
      Keeps.mono ⟨hblocks, hinline, hrest⟩ (List.subset_append_left _ _)
    have htoken := hp.token
    cases p with
    | block closing tag markup span => exact keeps_pushBlock hkeeps (htoken _ rfl)
    | inline closing tag markup content? e => exact keeps_pushInline hkeeps (htoken _ rfl) e
    | image n => exact keeps_pushInline hkeeps (htoken _ rfl) ⟨0, 0⟩
    | literal n => exact keeps_append hkeeps (htoken _ rfl)
    | ignored => exact hkeeps

/-- a leaf is a token of its own, unless it is the text of a block of code or HTML -/
theorem leaf_keeps {x : Event × Extent} (h : Keeps s opened fs b) (hx : leafToken? (.ofText s) x = some n)
    (hstep : b.step (.ofText s) x = b.pushInline (.ofText s) n e)
    (hliteral : literalText? (.ofText s) x = none ∨ isInLiteral opened = false) :
    Keeps s (openAfter opened x) (fs ++ (footprint? opened x).toList) (b.step (.ofText s) x) := by
  obtain ⟨f, hstands, hchildren, hleaf⟩ := stands_leaf hx
  obtain ⟨hf, hopened⟩ := hleaf opened hliteral
  rw [hstep, hf, hopened]
  exact keeps_pushInline (h.mono (List.subset_append_left _ _))
    (told_leaf hchildren (List.mem_append_right _ List.mem_cons_self) hstands) e

theorem isInLiteral_eq (h : List.Forall₂ (Waits s fs) ps opened) : inLiteral ps = isInLiteral opened := by
  cases h with
  | nil => rfl
  | cons hp _ => exact hp.literal

theorem text_keeps {x : Event × Extent} {t : List Char} (h : Keeps s opened fs b)
    (hx : literalText? (.ofText s) x = some (t, n)) :
    Keeps s (openAfter opened x) (fs ++ (footprint? opened x).toList) (b.step (.ofText s) x) := by
  obtain ⟨hn, hleaf, hadd⟩ := step_text hx
  have hin := isInLiteral_eq h.pending
  cases hliteral : isInLiteral opened with
  | false =>
    have hstep := (step_leaf hleaf (hin.trans hliteral)).trans (Builder.pushInline_eq (e := x.2) hn).symm
    exact leaf_keeps h hleaf hstep (.inr hliteral)
  | true =>
    obtain ⟨hnothing, hopened⟩ := footprint?_literal hx hliteral
    rw [hnothing, hopened, Option.toList_none, List.append_nil]
    obtain ⟨blocks, inline?, pending⟩ := b
    obtain ⟨hblocks, hinline, hpending⟩ := h
    cases hpending with
    | nil => exact absurd hliteral Bool.false_ne_true
    | @cons p x ps opened hp hrest =>
      cases p with
      | literal m =>
        rw [show (⟨blocks, inline?, .literal m :: ps⟩ : Builder) = .await (.literal m) ⟨blocks, inline?, ps⟩ from rfl,
          hadd]
        refine ⟨hblocks, hinline, .cons ⟨hp.literal, ?_, ?_⟩ hrest⟩ <;> rintro _ ⟨⟩
        · exact hp.kind m rfl
        · -- the text is not part of what the token stands for
          have hm := hp.token m rfl
          exact hm.change (hp.kind m rfl) rfl rfl (told_iff.1 hm).2
      | _ => exact absurd (hin.trans hliteral) Bool.false_ne_true

/-- **Every step keeps the tokens on the lines of what they stand for.** -/
theorem step_keeps (h : Keeps s opened fs b) (x : Event × Extent) :
    Keeps s (openAfter opened x) (fs ++ (footprint? opened x).toList) (b.step (.ofText s) x) := by
  obtain ⟨ev, e⟩ := x
  cases ev with
  | start tag => exact start_keeps h tag e
  | stop => exact stop_keeps h e
  | text t => exact text_keeps h rfl
  | html t => exact text_keeps h rfl
  | code t => exact leaf_keeps h rfl rfl (.inl rfl)
  | inlineHtml t => exact leaf_keeps h rfl rfl (.inl rfl)
  | softBreak => exact leaf_keeps h rfl rfl (.inl rfl)
  | hardBreak => exact leaf_keeps h rfl rfl (.inl rfl)
  | rule =>
    exact keeps_pushBlock (h.mono (List.subset_append_left _ _)) (told_leaf rfl
      (List.mem_append_right _ List.mem_cons_self) (Footprint.stands_whole (e := e) rfl rfl (by decide)))
  | other => exact h.mono (List.subset_append_left _ _)

theorem run_keeps (es : List (Event × Extent)) (h : Keeps s opened fs b) :
    ∃ opened', Keeps s opened' (fs ++ footprintsIn opened es) (b.run (.ofText s) es) := by
  induction es generalizing opened fs b with
  | nil =>
    rw [footprintsIn, List.append_nil]
    exact ⟨opened, h⟩
  | cons x es ih =>
    rw [footprintsIn, ← List.append_assoc]
    exact ih (step_keeps h x)

end MarkVeil.Token
