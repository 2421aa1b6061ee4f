/-
What inline events make.

`Makes` says which tokens inline events make, with one constructor for each kind of element. The builder writes just
these tokens, whatever elements wait on its stack (`Makes.run`): an emphasis or a link is a token more at its start and
at its stop, and an image gathers the tokens of its description.
-/
import Mathlib.Tactic
import MarkVeil.Token.Builder

namespace MarkVeil.Token

open MarkVeil.Text
open MarkVeil.Markdown (Event LinkForm Stress Tag)

variable {src : Source} {b : Builder} {n m o c : Node} {ns : List Node} {p : Pending} {ps : List Pending} {e : Extent}
  {es es' body : List (Event × Extent)}

def Pending.isImage : Pending → Bool
  | .image _ => true
  | _ => false

def Pending.isLiteral : Pending → Bool
  | .literal _ => true
  | _ => false

/-- the token that a stop writes for what waits -/
def Pending.token? (src : Source) : Pending → Option Node
  | .block closing tag markup span => some { kind := closing, span? := LineSpan.line span.last, markup, tag }
  | .inline closing tag markup content? e =>
    some { kind := closing, span? := LineSpan.line (lastLineOf src e), markup, tag, content? }
  | .image n | .literal n => some n
  | .ignored => none

/-- a token goes to the innermost image that waits, and to nothing else -/
theorem Builder.intoImage?_split {qs : List Pending} (h : intoImage? n ps = some qs) :
    ∃ front m rest, ps = front ++ .image m :: rest ∧
      qs = front ++ .image { m with children := m.children ++ [n] } :: rest := by
  induction ps generalizing qs with
  | nil => cases h
  | cons p ps ih =>
    have hbehind : ∀ {qs}, (intoImage? n ps).map (p :: ·) = some qs →
        ∃ front m rest, p :: ps = front ++ .image m :: rest ∧
          qs = front ++ .image { m with children := m.children ++ [n] } :: rest := by
      intro qs hqs
      obtain ⟨rest, hinto, rfl⟩ := Option.map_eq_some_iff.1 hqs
      obtain ⟨front, m, rest, rfl, rfl⟩ := ih hinto
      exact ⟨p :: front, m, rest, rfl, rfl⟩
    cases p with
    | image m => exact ⟨[], m, ps, rfl, (Option.some.inj h).symm⟩
    | _ => exact hbehind h

/-- directly in a block of code or HTML, where text is no token -/
def inLiteral (ps : List Pending) : Bool := ps.head?.any Pending.isLiteral

/-- some lines are covered -/
def Node.Placed (n : Node) : Prop := n.span?.isSome = true

/-! ## Inline tokens one after another -/

namespace Builder

/-- write an inline token that covers lines -/
def put (src : Source) (b : Builder) (n : Node) : Builder := b.pushInline src n ⟨0, 0⟩

def putAll (src : Source) (b : Builder) (ns : List Node) : Builder := ns.foldl (put src) b

theorem pushInline_eq (hn : n.Placed) : b.pushInline src n e = b.put src n := by
  obtain ⟨span, hspan⟩ := Option.isSome_iff_exists.1 hn
  rw [put, pushInline, pushInline, hspan]
  rfl

theorem putAll_append (ns ms : List Node) : b.putAll src (ns ++ ms) = (b.putAll src ns).putAll src ms :=
  List.foldl_append

theorem run_append : b.run src (es ++ es') = (b.run src es).run src es' := List.foldl_append

theorem run_cons (x : Event × Extent) : b.run src (x :: es) = (b.step src x).run src es := rfl

/-- what waits on top makes no difference to a token, unless it is an image -/
theorem put_await (hp : p.isImage = false) : (b.await p).put src n = (b.put src n).await p := by
  have hinto : intoImage? n (p :: b.pending) = (intoImage? n b.pending).map (p :: ·) := by
    cases p <;> first | rfl | exact absurd hp Bool.noConfusion
  rw [put, put, pushInline, pushInline, await, hinto]
  cases intoImage? n b.pending <;> rfl

theorem putAll_await (hp : p.isImage = false) (ns : List Node) :
    (b.await p).putAll src ns = (b.putAll src ns).await p := by
  induction ns generalizing b with
  | nil => rfl
  | cons n ns ih => rw [putAll, List.foldl_cons, put_await hp, ← putAll, ih]; rfl

/-- tokens go to the image on top -/
theorem putAll_image (ns : List Node) :
    (b.await (.image m)).putAll src ns = b.await (.image { m with children := m.children ++ ns }) := by
  induction ns generalizing m with
  | nil =>
    cases m
    rw [List.append_nil]
    rfl
  | cons n ns ih =>
    rw [putAll, List.foldl_cons, ← putAll]
    exact (ih (m := { m with children := m.children ++ [n] })).trans (by simp)

theorem inLiteral_put (src : Source) (b : Builder) (n : Node) : inLiteral (b.put src n).pending = inLiteral b.pending := by
  obtain ⟨blocks, inline?, pending⟩ := b
  cases pending with
  | nil => rfl
  | cons p ps => cases p <;> simp only [put, pushInline, intoImage?] <;> cases intoImage? n ps <;> rfl

theorem inLiteral_putAll (ns : List Node) : inLiteral (b.putAll src ns).pending = inLiteral b.pending := by
  induction ns generalizing b with
  | nil => rfl
  | cons n ns ih => exact (ih (b := b.put src n)).trans (inLiteral_put src b n)

end Builder

/-! ## Inline events -/

/-- the token of an event that is neither the start nor the stop of an element -/
def leafToken? (src : Source) : Event × Extent → Option Node
  | (.text t, e) => some (textToken src t e)
  | (.code t, e) =>
    some { kind := .codeInline, span? := spanOf src e, markup := String.ofList (codeMarker src e.start), tag := "code",
           content? := String.ofList t }
  | (.html t, e) | (.inlineHtml t, e) => some (htmlToken src t e)
  | (.softBreak, e) => some { kind := .softBreak, span? := spanOf src e }
  | (.hardBreak, e) => some { kind := .hardBreak, span? := spanOf src e }
  | _ => none

def stressTokens (src : Source) (kind : Stress) (e : Extent) : Node × Node :=
  let (opening, closing, tag, limit, plain) := stressShape kind
  let marker := stressMarker src e.start limit plain
  let markup := String.ofList marker
  let content? := (slice? src.text (e.start + byteLen marker) (e.stop - byteLen marker)).map String.ofList
  ({ kind := opening, span? := LineSpan.line (src.lines.lineOf e.start), markup, tag, content? },
    { kind := closing, span? := LineSpan.line (lastLineOf src e), markup, tag, content? })

def linkTokens (src : Source) (form : LinkForm) (e : Extent) : Node × Node :=
  ({ kind := .linkOpen, span? := spanOf src e, markup := linkMarker form, tag := "a" },
    { kind := .linkClose, span? := LineSpan.line (lastLineOf src e), markup := linkMarker form, tag := "a" })

/-- the tokens around an inline element -/
def inlineTokens? (src : Source) (e : Extent) : Tag → Option (Node × Node)
  | .stress kind => some (stressTokens src kind e)
  | .link form => some (linkTokens src form e)
  | _ => none

def imageToken (src : Source) (e : Extent) (children : List Node) : Node :=
  { kind := .image, span? := spanOf src e, markup := "![", tag := "img", children }

/-- inline events make tokens -/
inductive Makes (src : Source) : List (Event × Extent) → List Node → Prop
  | nil : Makes src [] []
  | append {es es' : List (Event × Extent)} {ns ms : List Node} (first : Makes src es ns) (rest : Makes src es' ms) :
      Makes src (es ++ es') (ns ++ ms)
  | leaf {x : Event × Extent} {n : Node} (h : leafToken? src x = some n) : Makes src [x] [n]
  | silent (e : Extent) : Makes src [(.other, e)] []
  | element {tag : Tag} {e e' : Extent} {o c : Node} {body : List (Event × Extent)} {ns : List Node}
      (h : inlineTokens? src e tag = some (o, c)) (inside : Makes src body ns) :
      Makes src ((.start tag, e) :: (body ++ [(.stop, e')])) (o :: (ns ++ [c]))
  | image {e e' : Extent} {body : List (Event × Extent)} {ns : List Node} (inside : Makes src body ns) :
      Makes src ((.start .image, e) :: (body ++ [(.stop, e')])) [imageToken src e ns]
  | ignored {e e' : Extent} {body : List (Event × Extent)} {ns : List Node} (inside : Makes src body ns) :
      Makes src ((.start .other, e) :: (body ++ [(.stop, e')])) ns

theorem placed_leafToken {x : Event × Extent} (h : leafToken? src x = some n) : n.Placed := by
  obtain ⟨ev, e⟩ := x
  cases ev <;> simp only [leafToken?, Option.some.injEq, reduceCtorEq] at h <;> subst h <;> rfl

theorem placed_inlineTokens {tag : Tag} (h : inlineTokens? src e tag = some (o, c)) : o.Placed ∧ c.Placed := by
  cases tag <;> simp only [inlineTokens?, Option.some.injEq, reduceCtorEq] at h
  case stress kind => obtain ⟨rfl, rfl⟩ := Prod.mk.inj h; exact ⟨rfl, rfl⟩
  case link form => obtain ⟨rfl, rfl⟩ := Prod.mk.inj h; exact ⟨rfl, rfl⟩

theorem Makes.placed (h : Makes src es ns) : ∀ n ∈ ns, n.Placed := by
  induction h with
  | nil => exact List.forall_mem_nil _
  | append _ _ ihFirst ihRest => exact List.forall_mem_append.2 ⟨ihFirst, ihRest⟩
  | leaf h => exact List.forall_mem_singleton.2 (placed_leafToken h)
  | silent e => exact List.forall_mem_nil _
  | element h _ ih =>
    obtain ⟨ho, hc⟩ := placed_inlineTokens h
    exact List.forall_mem_cons.2 ⟨ho, List.forall_mem_append.2 ⟨ih, List.forall_mem_singleton.2 hc⟩⟩
  | image _ _ => exact List.forall_mem_singleton.2 rfl
  | ignored _ ih => exact ih

/-- a leaf is a token unless it is the text of a block of code or HTML -/
theorem step_leaf {x : Event × Extent} (h : leafToken? src x = some n) (hb : inLiteral b.pending = false) :
    b.step src x = b.put src n := by
  have hadd : ∀ t e, n.Placed → b.addText src t n e = b.put src n := by
    intro t e hn
    rw [← Builder.pushInline_eq (e := e) hn, Builder.addText]
    split
    next hp => rw [hp] at hb; exact absurd hb Bool.noConfusion
    next => rfl
  have hn := placed_leafToken h
  obtain ⟨ev, e⟩ := x
  cases ev <;> simp only [leafToken?, Option.some.injEq, reduceCtorEq] at h <;> subst h
  case text t => exact hadd t e hn
  case html t => exact hadd t e hn
  all_goals exact Builder.pushInline_eq hn

/-- what an inline element does at its start and at its stop -/
theorem start_inline {tag : Tag} (h : inlineTokens? src e tag = some (o, c)) :
    ∃ p : Pending, p.isImage = false ∧ p.isLiteral = false ∧ p.token? src = some c ∧
      (∀ b : Builder, b.start src tag e = (b.put src o).await p) ∧ ∀ b : Builder, (b.await p).stop src = b.put src c := by
  obtain ⟨ho, hc⟩ := placed_inlineTokens h
  cases tag <;> simp only [inlineTokens?, Option.some.injEq, reduceCtorEq] at h
  case stress kind =>
    obtain ⟨rfl, rfl⟩ := Prod.mk.inj h
    refine ⟨.inline (stressShape kind).2.1 (stressTokens src kind e).2.tag (stressTokens src kind e).2.markup
      (stressTokens src kind e).2.content? e, rfl, rfl, rfl, fun b => ?_, fun b => ?_⟩
    · rw [← Builder.pushInline_eq (e := e) ho]
      rfl
    · rw [← Builder.pushInline_eq (e := e) hc]
      rfl
  case link form =>
    obtain ⟨rfl, rfl⟩ := Prod.mk.inj h
    refine ⟨.inline .linkClose "a" (linkMarker form) none e, rfl, rfl, rfl, fun b => ?_, fun b => ?_⟩
    · rw [← Builder.pushInline_eq (e := e) ho]
      rfl
    · rw [← Builder.pushInline_eq (e := e) hc]
      rfl

/-- an inline element makes its tokens wherever it stands -/
theorem run_element {tag : Tag} {e' : Extent} (h : inlineTokens? src e tag = some (o, c))
    (hbody : ∀ b : Builder, inLiteral b.pending = false → b.run src body = b.putAll src ns) (b : Builder) :
    b.run src ((.start tag, e) :: (body ++ [(.stop, e')])) = b.putAll src (o :: (ns ++ [c])) := by
  obtain ⟨p, himage, hliteral, -, hstart, hstop⟩ := start_inline h
  calc b.run src ((.start tag, e) :: (body ++ [(.stop, e')]))
      = (((b.put src o).await p).run src body).stop src := by
        rw [Builder.run_cons, Builder.run_append, Builder.step, hstart]
        rfl
    _ = (((b.put src o).putAll src ns).await p).stop src := by
        rw [hbody ((b.put src o).await p) hliteral, Builder.putAll_await himage]
    _ = b.putAll src (o :: (ns ++ [c])) := by
        rw [hstop]
        exact (Builder.putAll_append ns [c]).symm

/-- **An image gathers the tokens of its description** and is a token itself when it stops. -/
theorem run_image {e' : Extent}
    (hbody : ∀ b : Builder, inLiteral b.pending = false → b.run src body = b.putAll src ns) (b : Builder) :
    b.run src ((.start .image, e) :: (body ++ [(.stop, e')])) = b.putAll src [imageToken src e ns] := by
  calc b.run src ((.start .image, e) :: (body ++ [(.stop, e')]))
      = ((b.await (.image (imageToken src e []))).run src body).stop src := by
        rw [Builder.run_cons, Builder.run_append]
        rfl
    _ = (b.await (.image (imageToken src e ns))).stop src := by
        rw [hbody _ rfl, Builder.putAll_image]
        rfl
    _ = b.putAll src [imageToken src e ns] := rfl

/-- what is ignored waits and writes nothing -/
theorem run_ignored (b : Builder) {e' : Extent} (hbody : ((b.await .ignored).run src body).pending = .ignored :: ps) :
    b.run src ((.start .other, e) :: (body ++ [(.stop, e')])) =
      { (b.await .ignored).run src body with pending := ps } := by
  rw [Builder.run_cons, Builder.run_append]
  change ((b.await .ignored).run src body).stop src = _
  rw [Builder.stop, hbody]

/-- **The builder makes the tokens of inline events**, whatever waits on its stack. -/
theorem Makes.run (h : Makes src es ns) : ∀ b : Builder, inLiteral b.pending = false → b.run src es = b.putAll src ns := by
  induction h with
  | nil => exact fun _ _ => rfl
  | append _ _ ihFirst ihRest =>
    intro b hb
    rw [Builder.run_append, Builder.putAll_append, ihFirst b hb]
    exact ihRest _ (by rw [Builder.inLiteral_putAll, hb])
  | leaf h => exact fun b hb => step_leaf h hb
  | silent e => exact fun _ _ => rfl
  | element h _ ih => exact fun b _ => run_element h ih b
  | image _ ih => exact fun b _ => run_image ih b
  | @ignored e e' body ns _ ih =>
    intro b hb
    have hbody : (b.await .ignored).run src body = (b.putAll src ns).await .ignored := by
      rw [ih _ rfl, Builder.putAll_await rfl]
    rw [run_ignored b (by rw [hbody]; rfl), hbody]
    rfl

end MarkVeil.Token
