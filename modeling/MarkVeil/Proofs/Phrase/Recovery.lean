/-
Offsets are recovered exactly.

Tokens carry no offsets, so a scan finds each marker again by searching. `Recovers` says that reading the tokens of a
stretch of text from where it begins gives the ranges that it calls for and comes to where it ends. It composes
(`Recovers.append`), holds of every kind of phrase, and so of phrases nested to any depth (`recovers_all`). Main result:
- `collect_rendered`: a paragraph of well-formed phrases gets exactly the expected ranges.
-/
import MarkVeil.Decoration.Extract
import MarkVeil.Proofs.Phrase.Handlers
import MarkVeil.Proofs.Phrase.Tokens
import MarkVeil.Proofs.Token.BlockEvents
import MarkVeil.Proofs.Token.Lines

namespace MarkVeil.Decoration

open MarkVeil.Text
open MarkVeil.Text.Source (Around Reaches exists_around)
open MarkVeil.Token (Node)
open MarkVeil.Markdown (Inline)
open MarkVeil.Marker (Emphasis)

/-! ## Reading a stretch of text -/

namespace Scan

variable {src : Source} {sc : Scan} {n : Node}

theorem run_append (src : Source) (sc : Scan) (ns ms : List Node) :
    sc.run src (ns ++ ms) = sc.run src ns ++ (sc.after src ns).run src ms := by
  induction ns generalizing sc with
  | nil => rfl
  | cons n ns ih => rw [List.cons_append, run, ih, run, List.append_assoc, after, after, List.foldl_cons]

theorem after_append (src : Source) (sc : Scan) (ns ms : List Node) :
    sc.after src (ns ++ ms) = (sc.after src ns).after src ms :=
  List.foldl_append

theorem run_cons_of_step {sc' : Scan} {rs : List Range} (h : sc.step src n = (sc', rs)) (ns : List Node) :
    sc.run src (n :: ns) = rs ++ sc'.run src ns ∧ sc.after src (n :: ns) = sc'.after src ns := by
  rw [run, after, List.foldl_cons, h]
  exact ⟨rfl, rfl⟩

/-- tokens between two others -/
theorem read_between {o c : Node} {ns : List Node} {sc₁ sc₂ sc₃ : Scan} {rs qs ps : List Range}
    (hopen : sc.step src o = (sc₁, rs)) (hrun : sc₁.run src ns = qs) (hafter : sc₁.after src ns = sc₂)
    (hclose : sc₂.step src c = (sc₃, ps)) :
    sc.run src (o :: (ns ++ [c])) = rs ++ (qs ++ ps) ∧ sc.after src (o :: (ns ++ [c])) = sc₃ := by
  obtain ⟨hrun₁, hafter₁⟩ := run_cons_of_step hopen (ns ++ [c])
  obtain ⟨hrun₃, hafter₃⟩ := run_cons_of_step hclose []
  constructor
  · rw [hrun₁, run_append, hrun, hafter, hrun₃, run, List.append_nil]
  · rw [hafter₁, after_append, hafter, hafter₃]
    rfl

/-- the tokens of a link: its frame is gone behind it, and the scan goes on where the link ends, if it was found -/
theorem read_link {o c : Node} {ns : List Node} {es : List Emphasis} {label stop : Nat} {resume? : Option Nat}
    {rs qs : List Range} (hopen : sc.step src o = (⟨label, .link resume? :: sc.frames⟩, rs))
    (hrun : run src ⟨label, .link resume? :: sc.frames⟩ ns = qs)
    (hafter : after src ⟨label, .link resume? :: sc.frames⟩ ns = ⟨stop, Frame.notes (.link resume? :: sc.frames) es⟩)
    (hclose : c.kind = .linkClose) :
    sc.run src (o :: (ns ++ [c])) = rs ++ qs ∧
      sc.after src (o :: (ns ++ [c])) = ⟨max stop (resume?.getD 0), Frame.notes sc.frames es⟩ := by
  rw [Frame.notes_cons (Or.inl rfl)] at hafter
  have hstep : step src ⟨stop, .link resume? :: Frame.notes sc.frames es⟩ c =
      (⟨max stop (resume?.getD 0), Frame.notes sc.frames es⟩, []) := by
    rw [step, hclose, ← closeLink_frame]
  obtain ⟨hrun', hafter'⟩ := read_between hopen hrun hafter hstep
  rw [List.append_nil] at hrun'
  exact ⟨hrun', hafter'⟩

/-- the tokens of an emphasis: its frame is gone behind it, and outer frames have noted it and what opened inside -/
theorem read_emphasis {e : Emphasis} {o c : Node} {ns : List Node} {es : List Emphasis} {content stop behind : Nat}
    {marker : List Char} {start? : Option Nat} {rs qs ps : List Range}
    (hopen : sc.step src o = (⟨content, Frame.pushed e marker start? sc.frames⟩, rs))
    (hrun : run src ⟨content, Frame.pushed e marker start? sc.frames⟩ ns = qs)
    (hafter : after src ⟨content, Frame.pushed e marker start? sc.frames⟩ ns =
      ⟨stop, Frame.notes (Frame.pushed e marker start? sc.frames) es⟩)
    (hclose : step src ⟨stop, .emphasis e marker start? (e.merges && !sc.frames.any Frame.isOuter && es.any (e != ·))
      (e.merges && sc.frames.any Frame.isOuter) :: Frame.notes sc.frames ((if e.merges then [e] else []) ++ es)⟩ c =
        (⟨behind, Frame.notes sc.frames ((if e.merges then [e] else []) ++ es)⟩, ps)) :
    sc.run src (o :: (ns ++ [c])) = rs ++ (qs ++ ps) ∧ sc.after src (o :: (ns ++ [c])) =
      ⟨behind, Frame.notes sc.frames ((if e.merges then [e] else []) ++ es)⟩ := by
  rw [Frame.notes_pushed] at hafter
  exact read_between hopen hrun hafter hclose

end Scan

/-- read from behind `a`, the tokens `ns` of a text `m` give the ranges `rs`, which depend on whether the scan is
inside an outer emphasis, and the scan comes behind `m` with its frames but for notes of `es` -/
def Recovers (src : Source) (a : List Char) (ns : List Node) (m : List Char) (rs : Bool → List Range)
    (es : List Emphasis) : Prop :=
  ∀ sc : Scan, Reaches a sc.cursor → ∃ cursor, Reaches (a ++ m) cursor ∧
    sc.run src ns = rs (sc.frames.any Frame.isOuter) ∧ sc.after src ns = ⟨cursor, Frame.notes sc.frames es⟩

namespace Recovers

variable {src : Source} {a m m' : List Char} {n : Node} {ns ns' : List Node} {rs rs' : Bool → List Range}
  {es es' : List Emphasis}

theorem nil (src : Source) (a : List Char) : Recovers src a [] [] (fun _ => []) [] := by
  intro sc hc
  exact ⟨sc.cursor, by rwa [List.append_nil], rfl, rfl⟩

theorem append (h : Recovers src a ns m rs es) (h' : Recovers src (a ++ m) ns' m' rs' es') :
    Recovers src a (ns ++ ns') (m ++ m') (fun inside => rs inside ++ rs' inside) (es ++ es') := by
  intro sc hc
  obtain ⟨cursor, hcursor, hrun, hafter⟩ := h sc hc
  obtain ⟨cursor', hcursor', hrun', hafter'⟩ := h' ⟨cursor, Frame.notes sc.frames es⟩ hcursor
  refine ⟨cursor', by rwa [← List.append_assoc], ?_, ?_⟩
  · rw [Scan.run_append, hrun, hafter, hrun', Frame.any_isOuter_notes]
  · rw [Scan.after_append, hafter, hafter', Frame.notes_append]

/-- a token that moves the cursor behind the text and leaves the frames alone -/
theorem of_step {ranges : List Range} (h : ∀ sc : Scan, Reaches a sc.cursor →
    sc.step src n = ({ sc with cursor := byteLen a + byteLen m }, ranges)) :
    Recovers src a [n] m (fun _ => ranges) [] := by
  intro sc hc
  obtain ⟨hrun, hafter⟩ := Scan.run_cons_of_step (h sc hc) []
  refine ⟨byteLen a + byteLen m, Or.inl (byteLen_append a m).symm, ?_, hafter⟩
  rw [hrun]
  exact List.append_nil ranges

/-- the tokens of a link: behind it the scan goes on where the link ends -/
theorem link {nclose : Node} {c : Char} {label : List Char} {ranges : List Range}
    (hopen : ∀ sc : Scan, Reaches a sc.cursor → sc.step src n =
      (⟨byteLen (a ++ [c]), .link (some (byteLen a + byteLen m)) :: sc.frames⟩, ranges))
    (hlabel : Recovers src (a ++ [c]) ns label rs es) (hclose : nclose.kind = .linkClose)
    (hle : byteLen (a ++ [c] ++ label) ≤ byteLen a + byteLen m) :
    Recovers src a (n :: (ns ++ [nclose])) m (fun inside => ranges ++ rs inside) es := by
  intro sc hc
  obtain ⟨cursor, hcursor, hrun, hafter⟩ := hlabel ⟨byteLen (a ++ [c]), _⟩ (Or.inl rfl)
  obtain ⟨hrun', hafter'⟩ := Scan.read_link (hopen sc hc) hrun hafter hclose
  have hmax : max cursor (byteLen a + byteLen m) = byteLen a + byteLen m := max_eq_right (hcursor.le.trans hle)
  rw [Option.getD_some, hmax] at hafter'
  exact ⟨byteLen a + byteLen m, Or.inl (byteLen_append a m).symm, hrun', hafter'⟩

/-- an emphasis that is not suppressed is styled by all that opened inside -/
theorem styled_of_notes (e : Emphasis) {body : List Char} (hbody : body ≠ []) (a : List Char) (inside : Bool)
    (es : List Emphasis) :
    (if e.merges && inside then [] else style (.styled (byteLen a) (byteLen (a ++ body))
      (e.styledKind (e.merges && !inside && es.any (e != ·))))) =
      if e.merges && inside then [] else [.styled (byteLen a) (byteLen (a ++ body))
        (e.styledKind (es.any (e != ·)))] := by
  have hlt : byteLen a < byteLen (a ++ body) := by
    rw [byteLen_append]
    exact Nat.lt_add_of_pos_right (byteLen_pos hbody)
  rw [style_styled hlt]
  cases e <;> cases inside <;> rfl

/-- the tokens of an emphasis: its frame is gone behind it, and outer frames have noted it -/
theorem emphasis {e : Emphasis} {nclose : Node} {d body : List Char} (hbody : body ≠ [])
    (hopen : ∀ sc : Scan, Reaches a sc.cursor → sc.step src n =
      (⟨byteLen (a ++ d), Frame.opened e d (byteLen (a ++ d)) sc.frames⟩, [.hide (byteLen a) (byteLen (a ++ d))]))
    (hinner : Recovers src (a ++ d) ns body rs es)
    (hclose : ∀ (sc : Scan) (start : Nat) (mixed suppressed : Bool) (fs : List Frame),
      Reaches (a ++ d ++ body) sc.cursor → sc.frames = .emphasis e d (some start) mixed suppressed :: fs →
      sc.step src nclose = (⟨byteLen (a ++ d ++ body ++ d), fs⟩,
        (if suppressed then [] else style (.styled start (byteLen (a ++ d ++ body)) (e.styledKind mixed))) ++
          [.hide (byteLen (a ++ d ++ body)) (byteLen (a ++ d ++ body ++ d))])) :
    Recovers src a (n :: (ns ++ [nclose])) (d ++ body ++ d)
      (fun inside => .hide (byteLen a) (byteLen (a ++ d)) :: (rs (inside || e.merges) ++
        ((if e.merges && inside then [] else
          [.styled (byteLen (a ++ d)) (byteLen (a ++ d ++ body)) (e.styledKind (es.any (e != ·)))]) ++
          [.hide (byteLen (a ++ d ++ body)) (byteLen (a ++ d ++ body ++ d))])))
      ((if e.merges then [e] else []) ++ es) := by
  intro sc hc
  obtain ⟨cursor, hcursor, hrun, hafter⟩ := hinner ⟨byteLen (a ++ d), _⟩ (Or.inl rfl)
  rw [Frame.any_isOuter_opened] at hrun
  obtain ⟨hrun', hafter'⟩ := Scan.read_emphasis (hopen sc hc) hrun hafter (hclose _ _ _ _ _ hcursor rfl)
  refine ⟨byteLen (a ++ d ++ body ++ d), Or.inl (by simp), ?_, hafter'⟩
  rw [hrun', styled_of_notes e hbody]
  rfl

end Recovers

/-! ## Phrases without phrases -/

namespace Phrase

variable {s a b : List Char} {inLink : Bool}

theorem recovers_text {m : List Char} (hm : Plain m) (hs : s = a ++ (m ++ b)) :
    Recovers (.ofText s) a (Token.ofInline (.ofText s) (inline (byteLen a) (.text m))) m (fun _ => []) [] := by
  subst hs
  have hlf := hm.not_mem (c := '\n') (by decide)
  have hcr := hm.not_mem (c := '\r') (by decide)
  obtain ⟨base, k, l, h⟩ := exists_around a b hm.1 hlf hcr
  rw [inline, ofInline_text a b hlf hm.1]
  refine Recovers.of_step ?_
  intro sc hc
  rw [Scan.step]
  exact congrArg (·, []) (Scan.skipText_complete h hc hm.1 rfl rfl)

theorem recovers_code {ticks : Nat} {t : List Char} (hticks : 0 < ticks) (ht : Plain t)
    (hs : s = a ++ (render (.code ticks t) ++ b)) (hb : b.head? ≠ some '`') :
    Recovers (.ofText s) a (Token.ofInline (.ofText s) (inline (byteLen a) (.code ticks t)))
      (render (.code ticks t)) (fun inside => expected inside (byteLen a) (.code ticks t)) [] := by
  subst hs
  have hwf : WellFormed true (.code ticks t) := ⟨hticks, ht⟩
  obtain ⟨hlf, hcr⟩ := no_line_end _ hwf
  obtain ⟨base, k, l, h⟩ := exists_around a b (render_ne_nil hwf) hlf hcr
  rw [inline, ofInline_code a b hticks ht]
  refine Recovers.of_step ?_
  intro sc hc
  have hm : render (.code ticks t) = List.replicate ticks '`' ++ (t ++ List.replicate ticks '`') := by simp [render]
  rw [Scan.step]
  exact Scan.codeSpan_complete hm hticks (ht.not_mem (by decide)) ht.1 h hc rfl hb rfl

theorem recovers_image {alt target : List Char} (ha : Plain alt) (ht : Plain target)
    (hs : s = a ++ (render (.image alt target) ++ b)) :
    Recovers (.ofText s) a (Token.ofInline (.ofText s) (inline (byteLen a) (.image alt target)))
      (render (.image alt target)) (fun inside => expected inside (byteLen a) (.image alt target)) [] := by
  subst hs
  have hwf : WellFormed true (.image alt target) := ⟨ha, ht⟩
  obtain ⟨hlf, hcr⟩ := no_line_end _ hwf
  obtain ⟨base, k, l, h⟩ := exists_around a b (render_ne_nil hwf) hlf hcr
  rw [inline, ofInline_image a b hlf (render_ne_nil hwf)]
  refine Recovers.of_step ?_
  intro sc hc
  rw [Scan.step]
  exact Scan.image_complete h hc rfl (ha.not_mem (by decide)) ha.1 (ht.not_mem (by decide)) ht.1 rfl

/-- a line break leaves the cursor where it is, before the line that begins -/
theorem recovers_lineBreak (crlf : Bool) (e : Extent) :
    Recovers (.ofText s) a (Token.ofInline (.ofText s) (.softBreak e)) (render (.lineBreak crlf)) (fun _ => []) [] := by
  intro sc hc
  refine ⟨sc.cursor, Or.inr ⟨?_, Or.inr ?_⟩, rfl, rfl⟩
  · rw [byteLen_append]
    exact hc.le.trans (Nat.le_add_right _ _)
  · cases crlf <;> simp [render, List.getLast?_append]

/-! ## Phrases with phrases -/

theorem recovers_autolink {address : List Char} (ht : Plain address)
    (hs : s = a ++ (render (.autolink address) ++ b)) :
    Recovers (.ofText s) a (Token.ofInline (.ofText s) (inline (byteLen a) (.autolink address)))
      (render (.autolink address)) (fun inside => expected inside (byteLen a) (.autolink address)) [] := by
  have hlf : '\n' ∉ render (.autolink address) := by simp [render, ht.not_mem]
  have hcr : '\r' ∉ render (.autolink address) := by simp [render, ht.not_mem]
  have hne : render (.autolink address) ≠ [] := by simp [render]
  have hsize : byteLen (a ++ ['<']) = byteLen a + 1 := byteLen_append a ['<']
  -- the address is a text of its own
  have haddress := recovers_text (a := a ++ ['<']) (b := '>' :: b) (s := s) ht (by simp [hs, render])
  rw [hsize, inline] at haddress
  obtain ⟨base, k, l, h⟩ := exists_around a b hne hlf hcr
  have htokens := ofInline_link a b hlf hne .autolink [.text ⟨byteLen a + 1, byteLen a + 1 + byteLen address⟩]
  rw [← hs] at h htokens
  have hexpected : (fun inside => expected inside (byteLen a) (.autolink address)) =
      fun _ => expected false (byteLen a) (.autolink address) ++ [] := by
    funext inside
    rw [List.append_nil, expected, expected]
  rw [hexpected, inline, htokens, Token.ofInlines, Token.ofInlines, List.append_nil]
  refine Recovers.link (fun sc hc => ?_) haddress ?_ ?_
  · have hfound := Scan.openAutolink?_complete h hc rfl (ht.not_mem (by decide)) ht.1
    rw [Scan.step, hsize]
    exact Scan.openLink_complete rfl (Or.inl ⟨rfl, hfound⟩)
  · rfl
  · simp [render]

theorem recovers_link {label : List Phrase} {target : List Char} (hwf : WellFormed false (.link label target))
    (hs : s = a ++ (render (.link label target) ++ b)) (hbang : a.getLast? ≠ some '!')
    (hlabel : Recovers (.ofText s) (a ++ ['[']) (Token.ofInlines (.ofText s) (inlines (byteLen (a ++ ['['])) label))
      (renderAll label) (fun inside => expectedAll inside (byteLen (a ++ ['['])) label) (marksAll label)) :
    Recovers (.ofText s) a (Token.ofInline (.ofText s) (inline (byteLen a) (.link label target)))
      (render (.link label target)) (fun inside => expected inside (byteLen a) (.link label target))
      (marks (.link label target)) := by
  obtain ⟨-, hlne, hl, ht⟩ := hwf
  obtain ⟨hllf, hlcr⟩ := no_line_end_all label hl
  have hlf : '\n' ∉ render (.link label target) := by simp [render, hllf, ht.not_mem]
  have hcr : '\r' ∉ render (.link label target) := by simp [render, hlcr, ht.not_mem]
  have hne : render (.link label target) ≠ [] := by simp [render]
  have hsize : byteLen (a ++ ['[']) = byteLen a + 1 := byteLen_append a ['[']
  rw [hsize] at hlabel
  obtain ⟨base, k, l, h⟩ := exists_around a b hne hlf hcr
  have htokens := ofInline_link a b hlf hne .inline (inlines (byteLen a + 1) label)
  rw [← hs] at h htokens
  rw [inline, htokens]
  refine Recovers.link (fun sc hc => ?_) hlabel ?_ ?_
  · have hfound := Scan.openInline?_complete h hc rfl (label_renderAll label hl) (renderAll_ne_nil hl hlne)
      (ht.not_mem (by decide)) ht.1 hbang
    rw [Scan.step, hsize]
    exact Scan.openLink_complete rfl (Or.inr ⟨rfl, hfound⟩)
  · rfl
  · simp [render]

mutual

theorem strike_not_mem_marks : ∀ p : Phrase, .strike ∉ p.marks
  | .text _ => by simp [marks]
  | .stress e body => by
    have := strike_not_mem_marksAll body
    cases e <;> simp [marks, this]
  | .code _ _ => by simp [marks]
  | .link label _ => strike_not_mem_marksAll label
  | .autolink _ => by simp [marks]
  | .image _ _ => by simp [marks]
  | .lineBreak _ => by simp [marks]

theorem strike_not_mem_marksAll : ∀ ps : List Phrase, .strike ∉ marksAll ps
  | [] => by simp [marksAll]
  | p :: ps => by simp [marksAll, strike_not_mem_marks p, strike_not_mem_marksAll ps]

end

/-- of strong and em, one that is not the first is the second -/
theorem styledKind_marks (e : Emphasis) (body : List Phrase) :
    e.styledKind ((marksAll body).any (e != ·)) = styleOf e body := by
  have hother : ∀ f : Emphasis, e ≠ .strike → f ≠ .strike → e ≠ f →
      ((marksAll body).any (e != ·) = true ↔ f ∈ marksAll body) := by
    intro f he hf hef
    simp only [List.any_eq_true, bne_iff_ne]
    constructor
    · rintro ⟨x, hx, hex⟩
      have hstrike : x ≠ .strike := fun h => strike_not_mem_marksAll body (h ▸ hx)
      have hxf : x = f := by
        cases e <;> cases f <;> cases x <;> simp_all
      exact hxf ▸ hx
    · exact fun hmem => ⟨f, hmem, hef⟩
  cases e with
  | strong =>
    have := hother .em (by decide) (by decide) (by decide)
    cases hany : (marksAll body).any (Emphasis.strong != ·) <;> simp_all [styleOf, Emphasis.styledKind]
  | em =>
    have := hother .strong (by decide) (by decide) (by decide)
    cases hany : (marksAll body).any (Emphasis.em != ·) <;> simp_all [styleOf, Emphasis.styledKind]
  | strike => rfl

theorem recovers_stress {e : Emphasis} {body : List Phrase} (hwf : WellFormed inLink (.stress e body))
    (hs : s = a ++ (render (.stress e body) ++ b))
    (hbody : Recovers (.ofText s) (a ++ delimiter e)
      (Token.ofInlines (.ofText s) (inlines (byteLen (a ++ delimiter e)) body)) (renderAll body)
      (fun inside => expectedAll inside (byteLen (a ++ delimiter e)) body) (marksAll body)) :
    Recovers (.ofText s) a (Token.ofInline (.ofText s) (inline (byteLen a) (.stress e body)))
      (render (.stress e body)) (fun inside => expected inside (byteLen a) (.stress e body))
      (marks (.stress e body)) := by
  have hd := delimiter_ne_nil e
  have hlf : '\n' ∉ delimiter e := not_mem_delimiter e (by decide)
  have hcr : '\r' ∉ delimiter e := not_mem_delimiter e (by decide)
  obtain ⟨base, k, l, hopen⟩ := exists_around a (renderAll body ++ delimiter e ++ b) hd hlf hcr
  obtain ⟨base', k', l', hclose⟩ := exists_around (a ++ delimiter e ++ renderAll body) b hd hlf hcr
  obtain ⟨tag, content?, htokens⟩ := ofInline_stress e a (renderAll body) b (inlines (byteLen (a ++ delimiter e)) body)
  have hs1 : a ++ (delimiter e ++ (renderAll body ++ delimiter e ++ b)) = s := by simp [hs, render]
  have hs2 : a ++ delimiter e ++ renderAll body ++ (delimiter e ++ b) = s := by simp [hs, render]
  have hs3 : a ++ (delimiter e ++ renderAll body ++ delimiter e ++ b) = s := by simp [hs, render]
  rw [hs1] at hopen
  rw [hs2] at hclose
  rw [hs3, byteLen_append a (delimiter e)] at htokens
  have hmerges : e.merges = (e != .strike) := by cases e <;> rfl
  have hmarks : marks (.stress e body) = (if e.merges then [e] else []) ++ marksAll body := by
    cases e <;> rfl
  have hexpected : ∀ inside, expected inside (byteLen a) (.stress e body) =
      .hide (byteLen a) (byteLen (a ++ delimiter e)) ::
        (expectedAll (inside || e.merges) (byteLen (a ++ delimiter e)) body ++
          ((if e.merges && inside then [] else [.styled (byteLen (a ++ delimiter e))
            (byteLen (a ++ delimiter e ++ renderAll body)) (e.styledKind ((marksAll body).any (e != ·)))]) ++
          [.hide (byteLen (a ++ delimiter e ++ renderAll body))
            (byteLen (a ++ delimiter e ++ renderAll body ++ delimiter e))])) := by
    intro inside
    rw [expected, styledKind_marks, hmerges]
    simp only [byteLen_append]
  simp only [hexpected, hmarks]
  rw [inline, show render (.stress e body) = delimiter e ++ renderAll body ++ delimiter e from rfl, htokens,
    ← byteLen_append a (delimiter e)]
  have hopens : Emphasis.ofOpen? (openKind e) = some e := by cases e <;> rfl
  have hcloses : Emphasis.ofClose? (closeKind e) = some e := by cases e <;> rfl
  refine Recovers.emphasis (renderAll_ne_nil hwf.2 hwf.1) (fun sc hc => ?_) hbody fun sc start mixed sup fs hc hf => ?_
  · rw [byteLen_append]
    refine (Scan.step_of_open hopens _ _).trans ?_
    exact Scan.openEmphasis_complete hopen hc hd rfl rfl
  · rw [byteLen_append _ (delimiter e)]
    refine (Scan.step_of_close hcloses _ _).trans ?_
    exact Scan.closeEmphasis_complete hclose hc hd (by rw [List.append_assoc a]) rfl hf

/-! ## All phrases -/

mutual

/-- **Every phrase is recovered where it stands.** -/
theorem recovers {s : List Char} : ∀ (p : Phrase) {inLink : Bool} {a b : List Char}, p.WellFormed inLink →
    s = a ++ (p.render ++ b) → (p.isCode = true → b.head? ≠ some '`') → a.getLast? ≠ some '!' →
    Recovers (.ofText s) a (Token.ofInline (.ofText s) (p.inline (byteLen a))) p.render
      (fun inside => p.expected inside (byteLen a)) p.marks
  | .text m, inLink, a, b, hwf, hs, _, _ => recovers_text hwf hs
  | .stress e body, inLink, a, b, hwf, hs, _, _ => by
    have hbang : (a ++ delimiter e).getLast? ≠ some '!' := by cases e <;> simp [delimiter, List.getLast?_append]
    have htick : (delimiter e ++ b).head? ≠ some '`' := by cases e <;> simp [delimiter]
    exact recovers_stress hwf hs (recovers_all body hwf.2 (by simp [hs, render]) htick hbang)
  | .code ticks t, inLink, a, b, hwf, hs, hb, _ => recovers_code hwf.1 hwf.2 hs (hb rfl)
  | .link label target, inLink, a, b, hwf, hs, _, hbang => by
    obtain rfl : inLink = false := hwf.1
    have hb : (']' :: '(' :: (target ++ ')' :: b)).head? ≠ some '`' := by simp
    exact recovers_link hwf hs hbang (recovers_all label hwf.2.2.1 (by simp [hs, render]) hb (by simp))
  | .autolink address, inLink, a, b, hwf, hs, _, _ => recovers_autolink hwf.2 hs
  | .image alt target, inLink, a, b, hwf, hs, _, _ => recovers_image hwf.1 hwf.2 hs
  | .lineBreak crlf, inLink, a, b, _, _, _, _ => recovers_lineBreak crlf _

/-- **Phrases are recovered one after the other.** -/
theorem recovers_all {s : List Char} : ∀ (ps : List Phrase) {inLink : Bool} {a b : List Char},
    AllWellFormed inLink ps → s = a ++ (renderAll ps ++ b) → b.head? ≠ some '`' → a.getLast? ≠ some '!' →
    Recovers (.ofText s) a (Token.ofInlines (.ofText s) (inlines (byteLen a) ps)) (renderAll ps)
      (fun inside => expectedAll inside (byteLen a) ps) (marksAll ps)
  | [], inLink, a, b, _, _, _, _ => Recovers.nil _ _
  | p :: ps, inLink, a, b, hwf, hs, hb, hbang => by
    obtain ⟨hp, hcode, hps⟩ := hwf
    have hne := render_ne_nil hp
    have hnext : p.isCode = true → (renderAll ps ++ b).head? ≠ some '`' := by
      intro hpcode
      cases ps with
      | nil => exact hb
      | cons q qs =>
        have hq : q.isCode = false := by simpa using hcode hpcode
        rw [renderAll, List.append_assoc, List.head?_append_of_ne_nil _ (render_ne_nil hps.1)]
        exact head?_render_ne_tick hps.1 hq
    have hlast : (a ++ p.render).getLast? ≠ some '!' := by
      rw [List.getLast?_append_of_ne_nil a hne]
      exact getLast?_render_ne_bang hp
    have hs1 : s = a ++ (p.render ++ (renderAll ps ++ b)) := by simp [hs, renderAll]
    have hs2 : s = a ++ p.render ++ (renderAll ps ++ b) := by simp [hs, renderAll]
    have hfirst := recovers p hp hs1 hnext hbang
    have hrest := recovers_all ps hps hs2 hb hlast
    rw [byteLen_append] at hrest
    exact hfirst.append hrest

end

/-! ## A paragraph -/

/-- the first token of a phrase is on the line where it begins -/
theorem first_token (src : Source) (pos : Nat) (p : Phrase) : ∃ n ns span, Token.ofInline src (p.inline pos) = n :: ns ∧
    n.span? = some span ∧ span.start = src.lines.lineOf pos := by
  cases p <;> exact ⟨_, _, _, rfl, rfl, rfl⟩

/-- a hull begins no later than any of its tokens -/
theorem hull_start_le {n : Node} {ns : List Node} {span : LineSpan} (h : n ∈ ns) (hspan : n.span? = some span) :
    ∃ u, Token.hull ns = some u ∧ u.start ≤ span.start := by
  obtain ⟨u, hu, hhull⟩ := Token.exists_isHull h hspan
  exact ⟨u, hu, (hhull.holds n h span hspan).1⟩

/-- a paragraph is scanned from the first line of its tokens on -/
theorem collect_paragraph (src : Source) (e : Extent) (content : List Inline) (hne : Token.ofInlines src content ≠ []) :
    collect src (Token.ofReport src [.paragraph e content]) =
      (Scan.start src (Token.hull (Token.ofInlines src content).reverse)).run src (Token.ofInlines src content) := by
  obtain ⟨n, ns, hns⟩ := List.exists_cons_of_ne_nil (List.reverse_ne_nil_iff.2 hne)
  have hback : Token.ofInlines src content = ns.reverse ++ [n] := by
    rw [← List.reverse_reverse (Token.ofInlines src content), hns, List.reverse_cons]
  rw [Token.ofReport_eq]
  simp [collect, Token.ofBlocks, Token.writeBlocks, Token.writeBlock, Token.Stream.pair, Token.Stream.block,
    Token.Stream.inline, Token.Stream.flush, walkAll, walk, bareRun, Token.Kind.isInline, hback]

/-- **A paragraph of phrases gets exactly the ranges that they call for**, wherever it stands in a text: behind any
lines and before anything that does not lengthen a run of backticks at its end. -/
theorem collect_rendered (before after : List Char) (ps : List Phrase) (e : Extent) (hps : AllWellFormed false ps)
    (hbefore : BeginsLine before) (hafter : after.head? ≠ some '`') :
    collect (.ofText (before ++ (renderAll ps ++ after)))
        (Token.ofReport (.ofText (before ++ (renderAll ps ++ after))) [.paragraph e (inlines (byteLen before) ps)]) =
      expectedAll false (byteLen before) ps := by
  cases hcases : ps with
  | nil =>
    rw [Token.ofReport_eq]
    rfl
  | cons p rest =>
    rw [← hcases]
    set src := Source.ofText (before ++ (renderAll ps ++ after)) with hsrc
    obtain ⟨n, ns, span, htokens, hspan, hstart⟩ := first_token src (byteLen before) p
    have hmem : n ∈ (Token.ofInlines src (inlines (byteLen before) ps)).reverse := by
      rw [List.mem_reverse, hcases, inlines, Token.ofInlines, htokens]
      exact List.mem_append_left _ List.mem_cons_self
    have hne : Token.ofInlines src (inlines (byteLen before) ps) ≠ [] := by
      intro hnil
      simp [hnil] at hmem
    obtain ⟨u, hu, hle⟩ := hull_start_le hmem hspan
    -- the scan starts at or before the first line
    have hcursor : Reaches before (Scan.start src (some u)).cursor := by
      refine Or.inr ⟨?_, hbefore⟩
      have hline : src.lines.lineOf (byteLen before) = before.count '\n' := LineIndex.lineOf_append before _
      rw [hstart, hline] at hle
      rw [Scan.start, Option.bind_some]
      cases hs : src.lines.start? u.start with
      | none => exact Nat.zero_le _
      | some x => exact LineIndex.start?_le hbefore hle hs
    have hbang : before.getLast? ≠ some '!' := by
      rcases hbefore with rfl | hlast
      · simp
      · simp [hlast]
    obtain ⟨cursor, -, hrun, -⟩ := recovers_all ps hps rfl hafter hbang _ hcursor
    rw [collect_paragraph src e _ hne, hu]
    exact hrun

/-- a link in an em in a strong that goes on over a line break: `**a*[b](u)*` and, on the next line, `c**` -/
theorem collect_rendered_nested :
    let ps : List Phrase :=
      [.stress .strong [.text ['a'], .stress .em [.link [.text ['b']] ['u']], .lineBreak false, .text ['c']]]
    AllWellFormed false ps ∧ BeginsLine ['#', '\n'] ∧ ['\n'].head? ≠ some '`' ∧
      collect (.ofText (['#', '\n'] ++ (renderAll ps ++ ['\n'])))
          (Token.ofReport (.ofText (['#', '\n'] ++ (renderAll ps ++ ['\n'])))
            [.paragraph ⟨2, 17⟩ (inlines (byteLen ['#', '\n']) ps)]) =
        [.hide 2 4, .hide 5 6, .hide 6 7, .hide 8 9, .hide 9 10, .hide 11 12, .styled 7 8 .link, .hide 12 13,
          .styled 4 15 .boldItalic, .hide 15 17] := by
  intro ps
  have hps : AllWellFormed false ps := by simp [ps, AllWellFormed, WellFormed, Plain, isCode]
  have hbefore : BeginsLine ['#', '\n'] := Or.inr rfl
  refine ⟨hps, hbefore, by decide, ?_⟩
  exact (collect_rendered ['#', '\n'] ['\n'] ps ⟨2, 17⟩ hps hbefore (by decide)).trans (by decide)

end Phrase

end MarkVeil.Decoration
