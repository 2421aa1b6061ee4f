/-
Inline structures and how they are written.

A `Phrase` is an inline element with the texts it is made of, nested to any depth. `render` writes it in Markdown,
`inline` is what a reader reports for it (elements with their extents), and `expected` are the ranges that it calls
for: a hide for each delimiter and a styled range for each content. `WellFormed` are the phrases whose rendering can be
read in one way only.
-/
import MarkVeil.Decoration.Range
import MarkVeil.Marker.Emphasis
import MarkVeil.Markdown.Inline
import MarkVeil.Proofs.Marker.Link

namespace MarkVeil.Decoration

open MarkVeil.Text
open MarkVeil.Markdown (Inline Stress)
open MarkVeil.Marker (Emphasis)
open MarkVeil.Marker.Link (Label)

inductive Phrase where
  | text (s : List Char)
  | stress (e : Emphasis) (body : List Phrase)
  /-- between two runs of `ticks` backticks -/
  | code (ticks : Nat) (s : List Char)
  | link (label : List Phrase) (target : List Char)
  | autolink (address : List Char)
  | image (alt target : List Char)
  /-- a soft break, written as a carriage return and a line feed or as the latter alone -/
  | lineBreak (crlf : Bool)

namespace Phrase

/-! ## Rendering -/

def delimiter : Emphasis → List Char
  | .strong => ['*', '*']
  | .em => ['*']
  | .strike => ['~', '~']

mutual

def render : Phrase → List Char
  | .text s => s
  | .stress e body => delimiter e ++ renderAll body ++ delimiter e
  | .code ticks s => List.replicate ticks '`' ++ s ++ List.replicate ticks '`'
  | .link label target => '[' :: (renderAll label ++ ']' :: '(' :: (target ++ [')']))
  | .autolink address => '<' :: (address ++ ['>'])
  | .image alt target => '!' :: '[' :: (alt ++ ']' :: '(' :: (target ++ [')']))
  | .lineBreak crlf => if crlf then ['\r', '\n'] else ['\n']

def renderAll : List Phrase → List Char
  | [] => []
  | p :: ps => render p ++ renderAll ps

end

def stressOf : Emphasis → Stress
  | .strong => .strong
  | .em => .emphasis
  | .strike => .strike

mutual

/-- what a reader reports for a phrase that is written from `pos` on -/
def inline (pos : Nat) : Phrase → Inline
  | .text s => .text ⟨pos, pos + byteLen s⟩
  | .stress e body =>
    .stress ⟨pos, pos + byteLen (render (.stress e body))⟩ (stressOf e) (inlines (pos + byteLen (delimiter e)) body)
  | .code ticks s => .code ⟨pos, pos + byteLen (render (.code ticks s))⟩ s
  | .link label target => .link ⟨pos, pos + byteLen (render (.link label target))⟩ .inline (inlines (pos + 1) label)
  | .autolink address =>
    .link ⟨pos, pos + byteLen (render (.autolink address))⟩ .autolink [.text ⟨pos + 1, pos + 1 + byteLen address⟩]
  | .image alt target =>
    .image ⟨pos, pos + byteLen (render (.image alt target))⟩ [.text ⟨pos + 2, pos + 2 + byteLen alt⟩]
  | .lineBreak crlf => .softBreak ⟨pos, pos + byteLen (render (.lineBreak crlf))⟩

def inlines (pos : Nat) : List Phrase → List Inline
  | [] => []
  | p :: ps => inline pos p :: inlines (pos + byteLen (render p)) ps

end

/-! ## Expected ranges -/

mutual

def marks : Phrase → List Emphasis
  | .text _ => []
  | .stress e body => (if e = .strike then [] else [e]) ++ marksAll body
  | .code _ _ => []
  | .link label _ => marksAll label
  | .autolink _ => []
  | .image _ _ => []
  | .lineBreak _ => []

def marksAll : List Phrase → List Emphasis
  | [] => []
  | p :: ps => marks p ++ marksAll ps

end

/-- how the body of an outermost emphasis is styled: as bold and italic if it has the other one inside -/
def styleOf (e : Emphasis) (body : List Phrase) : Kind :=
  match e with
  | .strong => if .em ∈ marksAll body then .boldItalic else .bold
  | .em => if .strong ∈ marksAll body then .boldItalic else .italic
  | .strike => .strikethrough

/-- ranges of a link or image at `pos`: the hides of its four delimiters and the style of its label -/
def bracketed (pos opener label target : Nat) (kind : Kind) : List Range :=
  let start := pos + opener
  let stop := start + label
  let close := stop + 2 + target
  [.hide pos start, .hide stop (stop + 1), .hide (stop + 1) (stop + 2), .hide close (close + 1),
    .styled start stop kind]

mutual

/-- ranges of a phrase that is written from `pos` on; `inside` a strong or an em only strikes are styled -/
def expected (inside : Bool) (pos : Nat) : Phrase → List Range
  | .text _ => []
  | .stress e body =>
    let start := pos + byteLen (delimiter e)
    let stop := start + byteLen (renderAll body)
    .hide pos start :: (expectedAll (inside || e != .strike) start body ++
      ((if e != .strike && inside then [] else [.styled start stop (styleOf e body)]) ++
        [.hide stop (stop + byteLen (delimiter e))]))
  | .code ticks s =>
    let start := pos + ticks
    let stop := start + byteLen s
    [.hide pos start, .hide stop (stop + ticks), .styled start stop .code]
  | .link label target =>
    bracketed pos 1 (byteLen (renderAll label)) (byteLen target) .link ++ expectedAll inside (pos + 1) label
  | .autolink address =>
    let stop := pos + 1 + byteLen address
    [.hide pos (pos + 1), .hide stop (stop + 1), .styled (pos + 1) stop .link]
  | .image alt target => bracketed pos 2 (byteLen alt) (byteLen target) .image
  | .lineBreak _ => []

def expectedAll (inside : Bool) (pos : Nat) : List Phrase → List Range
  | [] => []
  | p :: ps => expected inside pos p ++ expectedAll inside (pos + byteLen (render p)) ps

end

/-! ## Well-formed phrases -/

/-- some text without brackets, exclamation marks, backticks and line ends -/
def Plain (s : List Char) : Prop :=
  s ≠ [] ∧ ∀ c ∈ s, c ∉ ['[', ']', '(', ')', '<', '>', '!', '`', '\r', '\n']

instance (s : List Char) : Decidable (Plain s) := inferInstanceAs (Decidable (_ ∧ _))

def isCode : Phrase → Bool
  | .code _ _ => true
  | _ => false

mutual

/-- emphases and labels are not empty, texts are plain, code spans do not follow each other, and neither links nor
line breaks are in links -/
def WellFormed (inLink : Bool) : Phrase → Prop
  | .text s => Plain s
  | .stress _ body => body ≠ [] ∧ AllWellFormed inLink body
  | .code ticks s => 0 < ticks ∧ Plain s
  | .link label target => inLink = false ∧ label ≠ [] ∧ AllWellFormed true label ∧ Plain target
  | .autolink address => inLink = false ∧ Plain address
  | .image alt target => Plain alt ∧ Plain target
  | .lineBreak _ => inLink = false

def AllWellFormed (inLink : Bool) : List Phrase → Prop
  | [] => True
  | p :: ps => WellFormed inLink p ∧ (isCode p = true → ps.head?.any isCode = false) ∧ AllWellFormed inLink ps

end

/-! ## What a rendering has -/

variable {inLink : Bool} {p : Phrase} {ps body label : List Phrase} {s : List Char} {c : Char}

theorem Plain.not_mem (h : Plain s) (hc : c ∈ ['[', ']', '(', ')', '<', '>', '!', '`', '\r', '\n']) : c ∉ s :=
  fun hs => h.2 c hs hc

theorem Plain.head?_ne (h : Plain s) (hc : c ∈ ['[', ']', '(', ')', '<', '>', '!', '`', '\r', '\n']) :
    s.head? ≠ some c := fun hs => h.not_mem hc (List.mem_of_mem_head? hs)

theorem Plain.getLast?_ne (h : Plain s) (hc : c ∈ ['[', ']', '(', ')', '<', '>', '!', '`', '\r', '\n']) :
    s.getLast? ≠ some c := fun hs => h.not_mem hc (List.mem_of_getLast? hs)

theorem Plain.isLabel (h : Plain s) : Label s := by
  refine .of_chars fun c hc => ⟨?_, ?_⟩
  · rintro rfl
    exact h.not_mem (by decide) hc
  · rintro rfl
    exact h.not_mem (by decide) hc

theorem delimiter_ne_nil (e : Emphasis) : delimiter e ≠ [] := by cases e <;> simp [delimiter]

theorem mem_delimiter {e : Emphasis} (h : c ∈ delimiter e) : c = '*' ∨ c = '~' := by
  cases e <;> simp [delimiter] at h <;> simp [h]

theorem not_mem_delimiter (e : Emphasis) (hc : c ≠ '*' ∧ c ≠ '~') : c ∉ delimiter e := fun h =>
  (mem_delimiter h).elim hc.1 hc.2

theorem render_ne_nil (h : p.WellFormed inLink) : p.render ≠ [] := by
  cases p with
  | text s => exact h.1
  | stress e body => simp [render, delimiter_ne_nil]
  | code ticks s =>
    have := h.1
    simp [render]
    omega
  | link label target => simp [render]
  | autolink address => simp [render]
  | image alt target => simp [render]
  | lineBreak crlf => cases crlf <;> simp [render]

theorem renderAll_ne_nil (h : AllWellFormed inLink ps) (hne : ps ≠ []) : renderAll ps ≠ [] := by
  cases ps with
  | nil => exact absurd rfl hne
  | cons p ps => simp [renderAll, render_ne_nil h.1]

/-- only a code span begins with a backtick -/
theorem head?_render_ne_tick (h : p.WellFormed inLink) (hcode : p.isCode = false) : p.render.head? ≠ some '`' := by
  cases p with
  | text s => exact h.head?_ne (by decide)
  | stress e body => cases e <;> simp [render, delimiter]
  | code ticks s => simp [isCode] at hcode
  | link label target => simp [render]
  | autolink address => simp [render]
  | image alt target => simp [render]
  | lineBreak crlf => cases crlf <;> simp [render]

/-- nothing ends with an exclamation mark -/
theorem getLast?_render_ne_bang (h : p.WellFormed inLink) : p.render.getLast? ≠ some '!' := by
  cases p with
  | text s => exact h.getLast?_ne (by decide)
  | stress e body =>
    rw [render, List.getLast?_append_of_ne_nil _ (delimiter_ne_nil e)]
    cases e <;> simp [delimiter]
  | code ticks s =>
    obtain ⟨k, rfl⟩ := Nat.exists_eq_succ_of_ne_zero h.1.ne'
    rw [render, List.replicate_succ', ← List.append_assoc, List.getLast?_concat]
    simp
  | link label target => simp [render, List.getLast?_cons, List.getLast?_append]
  | autolink address => simp [render, List.getLast?_cons, List.getLast?_append]
  | image alt target => simp [render, List.getLast?_cons, List.getLast?_append]
  | lineBreak crlf => cases crlf <;> simp [render]

mutual

/-- what is in a link has no line ends -/
theorem no_line_end : ∀ p : Phrase, p.WellFormed true → '\n' ∉ p.render ∧ '\r' ∉ p.render
  | .text s, h => ⟨Plain.not_mem h (by decide), Plain.not_mem h (by decide)⟩
  | .stress e body, h => by
    obtain ⟨h1, h2⟩ := no_line_end_all body h.2
    simp [render, h1, h2, not_mem_delimiter]
  | .code ticks s, h => by
    have h1 := h.2.not_mem (c := '\n') (by decide)
    have h2 := h.2.not_mem (c := '\r') (by decide)
    simp [render, h1, h2, List.mem_replicate]
  | .link label target, h => by simp [WellFormed] at h
  | .autolink address, h => by simp [WellFormed] at h
  | .image alt target, h => by
    have h1 := h.1.not_mem (c := '\n') (by decide)
    have h2 := h.1.not_mem (c := '\r') (by decide)
    have h3 := h.2.not_mem (c := '\n') (by decide)
    have h4 := h.2.not_mem (c := '\r') (by decide)
    simp [render, h1, h2, h3, h4]
  | .lineBreak crlf, h => by simp [WellFormed] at h

theorem no_line_end_all : ∀ ps : List Phrase, AllWellFormed true ps → '\n' ∉ renderAll ps ∧ '\r' ∉ renderAll ps
  | [], _ => by simp [renderAll]
  | p :: ps, h => by
    obtain ⟨h1, h2⟩ := no_line_end p h.1
    obtain ⟨h3, h4⟩ := no_line_end_all ps h.2.2
    simp [renderAll, h1, h2, h3, h4]

end

mutual

/-- what is in a link can be a label -/
theorem label_render : ∀ p : Phrase, p.WellFormed true → Label p.render
  | .text s, h => Plain.isLabel h
  | .stress e body, h => by
    have hd : Label (delimiter e) := .of_chars fun c hc => by
      rcases mem_delimiter hc with rfl | rfl <;> decide
    exact (hd.append (label_renderAll body h.2)).append hd
  | .code ticks s, h => by
    have ht : Label (List.replicate ticks '`') := .of_chars fun c hc => by
      obtain rfl := List.eq_of_mem_replicate hc
      decide
    exact (ht.append h.2.isLabel).append ht
  | .link label target, h => by simp [WellFormed] at h
  | .autolink address, h => by simp [WellFormed] at h
  | .image alt target, h => .image (h.1.not_mem (by decide)) (h.2.not_mem (by decide)) .nil
  | .lineBreak crlf, h => by simp [WellFormed] at h

theorem label_renderAll : ∀ ps : List Phrase, AllWellFormed true ps → Label (renderAll ps)
  | [], _ => .nil
  | p :: ps, h => (label_render p h.1).append (label_renderAll ps h.2.2)

end

end Phrase

end MarkVeil.Decoration
