/-
Tokens of a rendered phrase.

Where a phrase stands in a text, its tokens are on the lines of their delimiters and carry them as written: one lemma
for each kind of element that a reader reports.
-/
import MarkVeil.Proofs.Phrase.Rendered
import MarkVeil.Proofs.Text.Source
import MarkVeil.Proofs.Token.Recursion

namespace MarkVeil.Decoration

open MarkVeil.Text
open MarkVeil.Token (Node)
open MarkVeil.Markdown (Inline LinkForm)
open MarkVeil.Marker (Emphasis)

variable {a b m t body : List Char} {n p : Nat}

/-! ## Reading the text -/

theorem textAfter_append (a t : List Char) : Token.textAfter (.ofText (a ++ t)) (byteLen a) = t := by
  rw [Token.textAfter, Source.ofText, dropBytes?_append, Option.getD_some]

theorem textOf_append (a m b : List Char) :
    Token.textOf (.ofText (a ++ (m ++ b))) ⟨byteLen a, byteLen a + byteLen m⟩ = m := by
  rw [Token.textOf, Source.ofText, ← List.append_assoc, slice?_append, Option.getD_some]

/-- the last line of what ends with `m` is the line of `m` -/
theorem lastLineOf_append (a b : List Char) (hm : '\n' ∉ m) (hne : m ≠ []) (hp : p ≤ byteLen a) :
    Token.lastLineOf (.ofText (a ++ (m ++ b))) ⟨p, byteLen a + byteLen m⟩ = a.count '\n' := by
  have hpos := byteLen_pos hne
  exact LineIndex.lineOf_within hm b (by simp only; omega) (by simp only; omega)

/-- what has no line feed is on one line -/
theorem spanOf_append (a b : List Char) (hm : '\n' ∉ m) (hne : m ≠ []) :
    Token.spanOf (.ofText (a ++ (m ++ b))) ⟨byteLen a, byteLen a + byteLen m⟩ = .line (a.count '\n') := by
  have hfirst : (Source.ofText (a ++ (m ++ b))).lines.lineOf (byteLen a) = a.count '\n' :=
    LineIndex.lineOf_append a (m ++ b)
  rw [Token.spanOf, hfirst, lastLineOf_append a b hm hne le_rfl, LineSpan.line]

/-! ## Markers -/

theorem le_countRun (n : Nat) (c : Char) (t : List Char) : n ≤ countRun c (List.replicate n c ++ t) := by
  induction n with
  | zero => exact Nat.zero_le _
  | succ n ih =>
    rw [List.replicate_succ, List.cons_append, countRun, runLen, if_pos (by simp)]
    exact Nat.succ_le_succ ih

/-- as many copies of a delimiter as an emphasis can have are its marker, whatever follows -/
theorem stressMarker_replicate {c : Char} (hc : c = '*' ∨ c = '_' ∨ c = '~') (limit : Nat) (hl : 0 < limit)
    (a t : List Char) (plain : Char) :
    Token.stressMarker (.ofText (a ++ (List.replicate limit c ++ t))) (byteLen a) limit plain =
      List.replicate limit c := by
  have hrun : Token.runLenAt (.ofText (a ++ (List.replicate limit c ++ t))) (byteLen a) c limit = limit := by
    rw [Token.runLenAt, textAfter_append]
    exact Nat.min_eq_right (le_countRun limit c t)
  obtain ⟨k, hk⟩ := Nat.exists_eq_succ_of_ne_zero hl.ne'
  rw [Token.stressMarker, textAfter_append]
  split
  next d rest hd =>
    rw [hk, List.replicate_succ, List.cons_append] at hd
    obtain rfl : c = d := (List.cons.inj hd).1
    rw [if_pos hc, hrun]
  next hnil => simp [hk] at hnil

namespace Phrase

/-- tokens of an emphasis, without their element and longest marker -/
def openKind : Emphasis → Token.Kind
  | .strong => .strongOpen
  | .em => .emOpen
  | .strike => .strikeOpen

def closeKind : Emphasis → Token.Kind
  | .strong => .strongClose
  | .em => .emClose
  | .strike => .strikeClose

theorem stressMarker_delimiter (e : Emphasis) (a t : List Char) :
    Token.stressMarker (.ofText (a ++ (delimiter e ++ t))) (byteLen a) (Token.stressShape (stressOf e)).2.2.2.1
      (Token.stressShape (stressOf e)).2.2.2.2 = delimiter e := by
  cases e
  · exact stressMarker_replicate (c := '*') (by decide) 2 (by decide) a t '*'
  · exact stressMarker_replicate (c := '*') (by decide) 1 (by decide) a t '*'
  · exact stressMarker_replicate (c := '~') (by decide) 2 (by decide) a t '~'

theorem codeMarker_ticks {s : List Char} (hn : 0 < n) (hs : s.head? ≠ some '`') :
    Token.codeMarker (.ofText (a ++ (List.replicate n '`' ++ s))) (byteLen a) = List.replicate n '`' := by
  rw [Token.codeMarker, textAfter_append, countRun_replicate_append n hs, Nat.max_eq_right hn]

/-! ## Tokens -/

theorem ofInline_text (a b : List Char) (hm : '\n' ∉ m) (hne : m ≠ []) :
    Token.ofInline (.ofText (a ++ (m ++ b))) (.text ⟨byteLen a, byteLen a + byteLen m⟩) =
      [{ kind := .text, span? := some (.line (a.count '\n')), content? := some (String.ofList m) }] := by
  rw [Token.ofInline, spanOf_append a b hm hne, textOf_append]

/-- the tokens around the body of an emphasis are on the lines of its delimiters -/
theorem ofInline_stress (e : Emphasis) (a body b : List Char) (children : List Inline) :
    ∃ tag content?, Token.ofInline (.ofText (a ++ (delimiter e ++ body ++ delimiter e ++ b)))
        (.stress ⟨byteLen a, byteLen a + byteLen (delimiter e ++ body ++ delimiter e)⟩ (stressOf e) children) =
      { kind := openKind e, span? := some (.line (a.count '\n')), markup := String.ofList (delimiter e), tag,
        content? } ::
        (Token.ofInlines (.ofText (a ++ (delimiter e ++ body ++ delimiter e ++ b))) children ++
          [{ kind := closeKind e, span? := some (.line ((a ++ (delimiter e ++ body)).count '\n')),
             markup := String.ofList (delimiter e), tag, content? }]) := by
  set s := a ++ (delimiter e ++ body ++ delimiter e ++ b) with hs
  have hopen : s = a ++ (delimiter e ++ (body ++ delimiter e ++ b)) := by simp [hs]
  have hclose : s = (a ++ (delimiter e ++ body)) ++ (delimiter e ++ b) := by simp [hs]
  have hmarker : Token.stressMarker (.ofText s) (byteLen a) (Token.stressShape (stressOf e)).2.2.2.1
      (Token.stressShape (stressOf e)).2.2.2.2 = delimiter e := by
    rw [hopen]
    exact stressMarker_delimiter e a _
  have hfirst : (Source.ofText s).lines.lineOf (byteLen a) = a.count '\n' := by
    rw [hopen]
    exact LineIndex.lineOf_append a _
  have hlast : Token.lastLineOf (.ofText s) ⟨byteLen a, byteLen a + byteLen (delimiter e ++ body ++ delimiter e)⟩ =
      (a ++ (delimiter e ++ body)).count '\n' := by
    have hstop : byteLen a + byteLen (delimiter e ++ body ++ delimiter e) =
        byteLen (a ++ (delimiter e ++ body)) + byteLen (delimiter e) := by
      simp only [byteLen_append]; omega
    rw [hclose, hstop]
    exact lastLineOf_append _ b (not_mem_delimiter e (by decide)) (delimiter_ne_nil e) (by simp)
  have hkinds : (Token.stressShape (stressOf e)).1 = openKind e ∧
      (Token.stressShape (stressOf e)).2.1 = closeKind e := by
    cases e <;> exact ⟨rfl, rfl⟩
  rw [Token.ofInline]
  simp only
  rw [hmarker, hfirst, hlast, hkinds.1, hkinds.2]
  exact ⟨_, _, rfl⟩

theorem ofInline_code {s : List Char} (a b : List Char) (hn : 0 < n) (hs : Plain s) :
    Token.ofInline (.ofText (a ++ (render (.code n s) ++ b)))
        (.code ⟨byteLen a, byteLen a + byteLen (render (.code n s))⟩ s) =
      [{ kind := .codeInline, span? := some (.line (a.count '\n')), markup := String.ofList (List.replicate n '`'),
         tag := "code", content? := some (String.ofList s) }] := by
  have hfeed : '\n' ∉ render (.code n s) := by
    have := hs.not_mem (c := '\n') (by decide)
    simp [render, List.mem_replicate, this]
  have hmarker : Token.codeMarker (.ofText (a ++ (render (.code n s) ++ b))) (byteLen a) = List.replicate n '`' := by
    have htext : render (.code n s) ++ b = List.replicate n '`' ++ (s ++ (List.replicate n '`' ++ b)) := by
      simp [render]
    rw [htext]
    refine codeMarker_ticks hn ?_
    rw [List.head?_append_of_ne_nil _ hs.1]
    exact hs.head?_ne (by decide)
  have hwf : WellFormed false (.code n s) := ⟨hn, hs⟩
  rw [Token.ofInline, spanOf_append a b hfeed (render_ne_nil hwf)]
  simp only
  rw [hmarker]

/-- the tokens around the label of a link are on its line -/
theorem ofInline_link (a b : List Char) (hm : '\n' ∉ m) (hne : m ≠ []) (form : LinkForm) (children : List Inline) :
    Token.ofInline (.ofText (a ++ (m ++ b))) (.link ⟨byteLen a, byteLen a + byteLen m⟩ form children) =
      { kind := .linkOpen, span? := some (.line (a.count '\n')), markup := Token.linkMarker form, tag := "a" } ::
        (Token.ofInlines (.ofText (a ++ (m ++ b))) children ++
          [{ kind := .linkClose, span? := some (.line (a.count '\n')), markup := Token.linkMarker form,
             tag := "a" }]) := by
  rw [Token.ofInline, spanOf_append a b hm hne, lastLineOf_append a b hm hne le_rfl]

theorem ofInline_image (a b : List Char) (hm : '\n' ∉ m) (hne : m ≠ []) (children : List Inline) :
    Token.ofInline (.ofText (a ++ (m ++ b))) (.image ⟨byteLen a, byteLen a + byteLen m⟩ children) =
      [{ kind := .image, span? := some (.line (a.count '\n')), markup := "![", tag := "img",
         children := Token.ofInlines (.ofText (a ++ (m ++ b))) children }] := by
  rw [Token.ofInline, spanOf_append a b hm hne]

end Phrase

end MarkVeil.Decoration
