/-
Links whose target is elsewhere.

Such a link stays as written, so its tokens should make no difference to what stands in it and behind it. Its frame does
lie on the stack while its label is read, under every construct that opens and closes there. Of tokens that match one
another (`Matched`) the stack below shows through only as far as an outer frame is in it: what they give and where they
leave the cursor depends on that alone, and all they change below is a note in the outer frame (`Acts`). The frame of a
link is no outer one. Main result:
- `reference_link_transparent`: around matched tokens, the two tokens of such a link change nothing, whatever stands
  before and behind.
-/
import MarkVeil.Proofs.Decoration.Nesting
import MarkVeil.Proofs.Token.Nested

namespace MarkVeil.Decoration

open MarkVeil.Text
open MarkVeil.Token (Node)
open MarkVeil.Marker (Emphasis)

/-! ## Matched tokens -/

/-- a token that neither opens nor closes an emphasis or a link -/
def standsAlone (k : Token.Kind) : Bool :=
  k.inlineClose?.isNone && (Emphasis.ofClose? k).isNone && k != .linkClose

/-- tokens of which each that opens an emphasis or a link is closed by one of its own kind, and none crosses another -/
inductive Matched : List Node → Prop
  | nil : Matched []
  | alone {n : Node} {ns : List Node} (kind : standsAlone n.kind = true) (rest : Matched ns) : Matched (n :: ns)
  | pair {o c : Node} {body ns : List Node} (kind : o.kind.inlineClose? = some c.kind) (inside : Matched body)
      (rest : Matched ns) : Matched (o :: (body ++ c :: ns))

/-- a pair of tokens is an emphasis or a link -/
theorem emphasis_or_link {o c : Token.Kind} (h : o.inlineClose? = some c) :
    (∃ e, Emphasis.ofOpen? o = some e ∧ Emphasis.ofClose? c = some e) ∨ o = .linkOpen ∧ c = .linkClose := by
  unfold Token.Kind.inlineClose? at h
  split at h <;> simp at h <;> subst h
  · exact Or.inl ⟨.em, rfl, rfl⟩
  · exact Or.inl ⟨.strong, rfl, rfl⟩
  · exact Or.inl ⟨.strike, rfl, rfl⟩
  · exact Or.inr ⟨rfl, rfl⟩

/-! ## Handlers look at the cursor -/

namespace Scan

variable {n : Node}

theorem openEmphasis_over (src : Source) (n : Node) (e : Emphasis) (cursor : Nat) :
    ∃ cursor' marker start? rs, ∀ fs, openEmphasis src n e ⟨cursor, fs⟩ =
      (⟨cursor', Frame.pushed e marker start? fs⟩, rs) := by
  let sc : Scan := ⟨cursor, []⟩
  refine ⟨(sc.openEmphasis src n e).1.cursor, markerOf n e.defaultMarker.toList, sc.contentStart? src e n,
    (sc.openEmphasis src n e).2, ?_⟩
  intro fs
  have hframes := frames_openEmphasis src ⟨cursor, fs⟩ n e
  exact Prod.ext (congrArg (Scan.mk _) hframes) rfl

theorem closeEmphasis_over (src : Source) (n : Node) (e : Emphasis) (cursor : Nat) (marker : List Char)
    (start? : Option Nat) (mixed suppressed : Bool) :
    ∃ cursor' rs, ∀ fs, closeEmphasis src n e ⟨cursor, .emphasis e marker start? mixed suppressed :: fs⟩ =
      (⟨cursor', fs⟩, rs) := by
  let sc : Scan := ⟨cursor, [.emphasis e marker start? mixed suppressed]⟩
  refine ⟨(sc.closeEmphasis src n e).1.cursor, (sc.closeEmphasis src n e).2, ?_⟩
  intro fs
  have hopen : (!Frame.isOpen e (.emphasis e marker start? mixed suppressed)) = false := by simp [Frame.isOpen]
  simp only [closeEmphasis, locateClose?, sc, List.dropWhile_cons, hopen, Bool.false_eq_true, if_false]
  split <;> rfl

/-- what the token of a link finds: the offset past the link, and the step to its label -/
def foundLink? (src : Source) (n : Node) (cursor : Nat) : Option (Nat × Nat × List Range) :=
  n.span?.bind fun span =>
    if n.markup = "<" then openAutolink? src span.start ⟨cursor, []⟩
    else if n.markup = "[" then openInline? src span.start ⟨cursor, []⟩
    else none

theorem openLink_over (src : Source) (n : Node) (cursor : Nat) :
    ∃ cursor' resume? rs, ∀ fs, openLink src n ⟨cursor, fs⟩ = (⟨cursor', .link resume? :: fs⟩, rs) := by
  refine ⟨((foundLink? src n cursor).map (·.2.1)).getD cursor, (foundLink? src n cursor).map (·.1),
    ((foundLink? src n cursor).map (·.2.2)).getD [], ?_⟩
  intro fs
  have hfound : (n.span?.bind fun span =>
      if n.markup = "<" then openAutolink? src span.start ⟨cursor, fs⟩
      else if n.markup = "[" then openInline? src span.start ⟨cursor, fs⟩
      else none) = foundLink? src n cursor := rfl
  simp only [openLink, hfound]
  cases foundLink? src n cursor <;> rfl

theorem skipText_over (src : Source) (n : Node) (cursor : Nat) :
    ∃ cursor', ∀ fs, skipText src n ⟨cursor, fs⟩ = ⟨cursor', fs⟩ := by
  refine ⟨(skipText src n ⟨cursor, []⟩).cursor, ?_⟩
  intro fs
  unfold skipText
  split
  · rfl
  · simp only
    split <;> rfl

theorem codeSpan_over (src : Source) (n : Node) (cursor : Nat) :
    ∃ cursor' rs, ∀ fs, codeSpan src n ⟨cursor, fs⟩ = (⟨cursor', fs⟩, rs) := by
  refine ⟨(codeSpan src n ⟨cursor, []⟩).1.cursor, (codeSpan src n ⟨cursor, []⟩).2, ?_⟩
  intro fs
  simp only [codeSpan, locateTicks?]
  split
  · rfl
  · split <;> rfl

theorem step_of_isPassed (h : isPassed n.kind = true) (src : Source) (sc : Scan) : sc.step src n = (sc, []) := by
  unfold isPassed Emphasis.ofOpen? Emphasis.ofClose? at h
  unfold step
  split <;> simp_all

theorem kind_of_standsAlone {k : Token.Kind} (h : standsAlone k = true) :
    (k = .text ∨ k = .htmlInline) ∨ k = .codeInline ∨ k = .image ∨ isPassed k = true := by
  cases k <;> first | decide | exact absurd h (by decide)

/-- a token that stands alone moves the cursor at most -/
theorem step_over (h : standsAlone n.kind = true) (src : Source) (cursor : Nat) :
    ∃ cursor' rs, ∀ fs, step src ⟨cursor, fs⟩ n = (⟨cursor', fs⟩, rs) := by
  rcases kind_of_standsAlone h with hk | hk | hk | hk
  · obtain ⟨cursor', hskip⟩ := skipText_over src n cursor
    refine ⟨cursor', [], ?_⟩
    intro fs
    rcases hk with hk | hk <;> rw [step, hk, ← hskip]
  · simp only [step, hk]
    exact codeSpan_over src n cursor
  · simp only [step, hk]
    exact ⟨_, _, image_over src n cursor⟩
  · simp only [step_of_isPassed hk]
    exact ⟨cursor, [], fun fs => rfl⟩

/-- a reference link leaves only its frame -/
theorem openLink_reference (hinline : n.markup ≠ "[") (hauto : n.markup ≠ "<") (src : Source) (sc : Scan) :
    sc.openLink src n = ({ sc with frames := .link none :: sc.frames }, []) := by
  simp only [openLink, if_neg hinline, if_neg hauto]
  cases n.span? <;> rfl

end Scan

/-! ## Tokens and the stack below -/

/-- tokens give what they give, and leave the cursor where they leave it, whatever frames lie below, but for whether
one of them is outer; and these only note `es` -/
def Acts (src : Source) (ns : List Node) (es : List Emphasis) : Prop :=
  ∀ cursor inside, ∃ cursor' rs, ∀ fs : List Frame, fs.any Frame.isOuter = inside →
    Scan.run src ⟨cursor, fs⟩ ns = rs ∧ Scan.after src ⟨cursor, fs⟩ ns = ⟨cursor', Frame.notes fs es⟩

namespace Acts

variable {src : Source} {n o c : Node} {ns ms : List Node} {es ds : List Emphasis} {e : Emphasis}

theorem nil (src : Source) : Acts src [] [] := by
  intro cursor inside
  exact ⟨cursor, [], fun fs _ => ⟨rfl, rfl⟩⟩

theorem append (h : Acts src ns es) (hm : Acts src ms ds) : Acts src (ns ++ ms) (es ++ ds) := by
  intro cursor inside
  obtain ⟨middle, rs, hns⟩ := h cursor inside
  obtain ⟨cursor', qs, hms⟩ := hm middle inside
  refine ⟨cursor', rs ++ qs, ?_⟩
  intro fs hfs
  obtain ⟨hrun, hafter⟩ := hns fs hfs
  obtain ⟨hrun', hafter'⟩ := hms (Frame.notes fs es) (by rw [Frame.any_isOuter_notes, hfs])
  constructor
  · rw [Scan.run_append, hrun, hafter, hrun']
  · rw [Scan.after_append, hafter, hafter', Frame.notes_append]

theorem alone (h : standsAlone n.kind = true) (src : Source) : Acts src [n] [] := by
  intro cursor inside
  obtain ⟨cursor', rs, hstep⟩ := Scan.step_over h src cursor
  refine ⟨cursor', rs, ?_⟩
  intro fs _
  obtain ⟨hrun, hafter⟩ := Scan.run_cons_of_step (hstep fs) []
  refine ⟨?_, hafter⟩
  rw [hrun]
  exact List.append_nil rs

theorem link (ho : o.kind = .linkOpen) (hc : c.kind = .linkClose) (h : Acts src ns es) :
    Acts src (o :: (ns ++ [c])) es := by
  intro cursor inside
  obtain ⟨label, resume?, rs, hopen⟩ := Scan.openLink_over src o cursor
  obtain ⟨stop, qs, hns⟩ := h label inside
  refine ⟨max stop (resume?.getD 0), rs ++ qs, ?_⟩
  intro fs hfs
  have hstep : Scan.step src ⟨cursor, fs⟩ o = (⟨label, .link resume? :: fs⟩, rs) := by rw [Scan.step, ho, ← hopen]
  obtain ⟨hrun, hafter⟩ := hns (.link resume? :: fs) (by rw [List.any_cons, hfs]; rfl)
  exact Scan.read_link hstep hrun hafter hc

theorem emphasis (ho : Emphasis.ofOpen? o.kind = some e) (hc : Emphasis.ofClose? c.kind = some e)
    (h : Acts src ns es) : Acts src (o :: (ns ++ [c])) ((if e.merges then [e] else []) ++ es) := by
  intro cursor inside
  obtain ⟨content, marker, start?, rs, hopen⟩ := Scan.openEmphasis_over src o e cursor
  obtain ⟨stop, qs, hns⟩ := h content (inside || e.merges)
  obtain ⟨behind, ps, hclose⟩ := Scan.closeEmphasis_over src c e stop marker start?
    (e.merges && !inside && es.any (e != ·)) (e.merges && inside)
  refine ⟨behind, rs ++ (qs ++ ps), ?_⟩
  intro fs hfs
  have hstep : Scan.step src ⟨cursor, fs⟩ o = (⟨content, Frame.pushed e marker start? fs⟩, rs) := by
    rw [Scan.step_of_open ho, hopen]
  obtain ⟨hrun, hafter⟩ := hns (Frame.pushed e marker start? fs) (by rw [Frame.any_isOuter_pushed, hfs])
  refine Scan.read_emphasis hstep hrun hafter ?_
  rw [Scan.step_of_close hc, hfs, hclose]

end Acts

/-- **Matched tokens act over any frames.** -/
theorem Matched.acts {ns : List Node} (h : Matched ns) (src : Source) : ∃ es, Acts src ns es := by
  induction h with
  | nil => exact ⟨[], Acts.nil src⟩
  | alone kind rest ih =>
    obtain ⟨es, hrest⟩ := ih
    exact ⟨[] ++ es, (Acts.alone kind src).append hrest⟩
  | @pair o c body ns kind inside rest ihInside ihRest =>
    obtain ⟨es, hinside⟩ := ihInside
    obtain ⟨ds, hrest⟩ := ihRest
    have hns : o :: (body ++ c :: ns) = (o :: (body ++ [c])) ++ ns := by simp
    rw [hns]
    rcases emphasis_or_link kind with ⟨e, ho, hc⟩ | ⟨ho, hc⟩
    · exact ⟨_, (Acts.emphasis ho hc hinside).append hrest⟩
    · exact ⟨_, (Acts.link ho hc hinside).append hrest⟩

/-- **A link whose target is elsewhere changes nothing** around matched tokens. -/
theorem reference_link_transparent {o c : Node} {segment : List Node} (ho : o.kind = .linkOpen)
    (hinline : o.markup ≠ "[") (hauto : o.markup ≠ "<") (hc : c.kind = .linkClose) (hsegment : Matched segment)
    (src : Source) (sc : Scan) (before behind : List Node) :
    sc.run src (before ++ o :: (segment ++ c :: behind)) = sc.run src (before ++ (segment ++ behind)) := by
  obtain ⟨es, hacts⟩ := hsegment.acts src
  set sc' := sc.after src before with hsc'
  obtain ⟨cursor, rs, hsame⟩ := hacts sc'.cursor (sc'.frames.any Frame.isOuter)
  obtain ⟨hrun, hafter⟩ := hsame sc'.frames rfl
  obtain ⟨hrun', hafter'⟩ := hsame (.link none :: sc'.frames) rfl
  have hopen : sc'.step src o = (⟨sc'.cursor, .link none :: sc'.frames⟩, []) := by
    rw [Scan.step, ho, ← Scan.openLink_reference hinline hauto src sc']
  obtain ⟨hlink, hbehind⟩ := Scan.read_link hopen hrun' hafter' hc
  rw [Option.getD_none, Nat.max_zero] at hbehind
  have hranges : sc'.run src (o :: (segment ++ [c])) = sc'.run src segment := hlink.trans hrun.symm
  have hscan : sc'.after src (o :: (segment ++ [c])) = sc'.after src segment := hbehind.trans hafter.symm
  calc sc.run src (before ++ o :: (segment ++ c :: behind))
      = sc.run src (before ++ ((o :: (segment ++ [c])) ++ behind)) := by simp
    _ = sc.run src before ++ (sc'.run src segment ++ (sc'.after src segment).run src behind) := by
        rw [Scan.run_append, ← hsc', Scan.run_append, hranges, hscan]
    _ = sc.run src (before ++ (segment ++ behind)) := by rw [Scan.run_append, ← hsc', Scan.run_append]

/-- in `**[*a*][r] b**` the em in the link makes the strong around it bold-italic, as it does without the link -/
theorem reference_link_transparent_nested :
    let src := Source.ofText "**[*a*][r] b**".toList
    let line := some (LineSpan.line 0)
    let strong : Node := ⟨.strongOpen, line, "**", "strong", none, none, []⟩
    let o : Node := ⟨.linkOpen, line, "[]", "a", none, none, []⟩
    let em : Node := ⟨.emOpen, line, "*", "em", none, none, []⟩
    let a : Node := ⟨.text, line, "", "", none, some "a", []⟩
    let em' : Node := ⟨.emClose, line, "*", "em", none, none, []⟩
    let c : Node := ⟨.linkClose, line, "[]", "a", none, none, []⟩
    let b : Node := ⟨.text, line, "", "", none, some " b", []⟩
    let strong' : Node := ⟨.strongClose, line, "**", "strong", none, none, []⟩
    Matched [em, a, em'] ∧ (Scan.start src line).run src ([strong] ++ o :: ([em, a, em'] ++ c :: [b, strong'])) =
      [.hide 0 2, .hide 3 4, .hide 5 6, .styled 2 12 .boldItalic, .hide 12 14] := by
  intro src line strong o em a em' c b strong'
  have hmatched : Matched [em, a, em'] := @Matched.pair em em' [a] [] rfl (.alone rfl .nil) .nil
  refine ⟨hmatched, ?_⟩
  rw [reference_link_transparent rfl (by decide) (by decide) rfl hmatched src (Scan.start src line) [strong]
    [b, strong']]
  decide

end MarkVeil.Decoration
