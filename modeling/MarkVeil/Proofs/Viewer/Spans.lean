/-
The spans of a line are its runs.

`Cut` says what it is to cut the characters of a line into maximal runs that are drawn alike; there is one way to do so
(`Cut.unique`). A character is drawn as its first byte is marked, and plain past the end of the marks, which may be
fewer than the bytes and change inside a character. Main result:
- `lineSpans_cut`: the spans of a line are its runs in order, those that are hidden left out.
-/
import MarkVeil.Proofs.Viewer.Drawn

namespace MarkVeil.Viewer

open MarkVeil.Text

variable {mark : Nat → Mark} {m : Mark} {ms : List Mark} {e : Extent} {text : List Char} {c : Nat × Char}
  {cs pre : List (Nat × Char)} {g : Mark × List (Nat × Char)} {gs hs : List (Mark × List (Nat × Char))}

/-- characters cut into maximal runs of one mark -/
structure Cut (mark : Nat → Mark) (cs : List (Nat × Char)) (gs : List (Mark × List (Nat × Char))) : Prop where
  /-- the runs are the characters, in order -/
  whole : gs.flatMap Prod.snd = cs
  nonempty : ∀ g ∈ gs, g.2 ≠ []
  alike : ∀ g ∈ gs, ∀ c ∈ g.2, mark c.1 = g.1
  /-- runs side by side have different marks -/
  maximal : gs.IsChain fun g h => g.1 ≠ h.1

namespace Cut

theorem nil (mark : Nat → Mark) : Cut mark [] [] := ⟨rfl, by simp, by simp, .nil⟩

/-- a run in front of runs that begin with another mark -/
theorem cons (hne : pre ≠ []) (halike : ∀ c ∈ pre, mark c.1 = m) (hcut : Cut mark cs gs)
    (hhead : ∀ g ∈ gs.head?, m ≠ g.1) : Cut mark (pre ++ cs) ((m, pre) :: gs) where
  whole := by rw [List.flatMap_cons, hcut.whole]
  nonempty := List.forall_mem_cons.2 ⟨hne, hcut.nonempty⟩
  alike := List.forall_mem_cons.2 ⟨halike, hcut.alike⟩
  maximal := List.isChain_cons.2 ⟨hhead, hcut.maximal⟩

theorem tail (h : Cut mark cs (g :: gs)) : Cut mark (gs.flatMap Prod.snd) gs where
  whole := rfl
  nonempty := (List.forall_mem_cons.1 h.nonempty).2
  alike := (List.forall_mem_cons.1 h.alike).2
  maximal := (List.isChain_cons.1 h.maximal).2

/-- the first run is that of the first character -/
theorem exists_head (h : Cut mark (c :: cs) gs) : ∃ rest hs, gs = (mark c.1, c :: rest) :: hs := by
  cases gs with
  | nil => simpa using h.whole
  | cons g hs =>
    obtain ⟨m, x⟩ := g
    obtain ⟨hne, -⟩ := List.forall_mem_cons.1 h.nonempty
    obtain ⟨halike, -⟩ := List.forall_mem_cons.1 h.alike
    obtain ⟨d, rest, rfl⟩ := List.exists_cons_of_ne_nil hne
    have hwhole := h.whole
    rw [List.flatMap_cons, List.cons_append, List.cons.injEq] at hwhole
    obtain ⟨rfl, -⟩ := hwhole
    exact ⟨rest, hs, by rw [halike d List.mem_cons_self]⟩

/-- the first run goes on while the mark is the same -/
theorem head_eq_takeWhile (h : Cut mark cs ((m, pre) :: gs)) :
    pre = cs.takeWhile (fun c => mark c.1 == m) ∧ gs.flatMap Prod.snd = cs.dropWhile fun c => mark c.1 == m := by
  have hwhole : pre ++ gs.flatMap Prod.snd = cs := h.whole
  have hpre : ∀ c ∈ pre, (mark c.1 == m) = true := by
    intro c hc
    simpa using (List.forall_mem_cons.1 h.alike).1 c hc
  rw [← hwhole, List.takeWhile_append_of_pos hpre, List.dropWhile_append_of_pos hpre]
  cases hrest : gs.flatMap Prod.snd with
  | nil => simp
  | cons d cs =>
    obtain ⟨rest, hs, rfl⟩ := (hrest ▸ h.tail).exists_head
    have hne : m ≠ mark d.1 := (List.isChain_cons.1 h.maximal).1 _ rfl
    have hd : (mark d.1 == m) = false := by simpa using hne.symm
    rw [List.takeWhile_cons, List.dropWhile_cons, hd]
    simp

/-- **There is one way to cut.** -/
theorem unique (h : Cut mark cs gs) (h' : Cut mark cs hs) : gs = hs := by
  induction gs generalizing cs hs with
  | nil =>
    obtain rfl : [] = cs := h.whole
    cases hs with
    | nil => rfl
    | cons g hs =>
      have hnil : g.2 ++ hs.flatMap Prod.snd = [] := h'.whole
      exact absurd (List.append_eq_nil_iff.1 hnil).1 (h'.nonempty g List.mem_cons_self)
  | cons g gs ih =>
    obtain ⟨m, pre⟩ := g
    obtain ⟨c, rest, rfl⟩ := List.exists_cons_of_ne_nil (h.nonempty _ List.mem_cons_self)
    have hcs : cs = c :: (rest ++ gs.flatMap Prod.snd) := h.whole.symm
    obtain ⟨rest', hs', rfl⟩ := (hcs ▸ h').exists_head
    obtain rfl : mark c.1 = m := h.alike _ List.mem_cons_self c List.mem_cons_self
    obtain ⟨hpre, hdrop⟩ := h.head_eq_takeWhile
    obtain ⟨hpre', hdrop'⟩ := h'.head_eq_takeWhile
    rw [hpre, hpre', ih h.tail (hdrop.trans hdrop'.symm ▸ h'.tail)]

end Cut

/-! ## Spans -/

/-- a run as a span in the style of its mark; a hidden run gives none -/
def spanOf? (g : Mark × List (Nat × Char)) : Option Span := g.1.style?.map fun st => ⟨g.2.map Prod.snd, st⟩

theorem spans_eq (m : Mark) (cs : List (Nat × Char)) :
    View.Run.spans ⟨m, (cs.map Prod.snd).reverse⟩ = (spanOf? (m, cs)).toList := by
  cases m <;> simp [View.Run.spans, spanOf?, Mark.style?]

/-- a run in progress and the characters behind it are drawn as the runs they are cut into -/
theorem exists_cut_runs (hne : pre ≠ []) (halike : ∀ c ∈ pre, (ms[c.1]?).getD .plain = m) (pos : Nat) (s : List Char) :
    ∃ gs, Cut (fun p => (ms[p]?).getD .plain) (pre ++ located pos s) gs ∧
      View.runs ms pos (some ⟨m, (pre.map Prod.snd).reverse⟩) s = gs.filterMap spanOf? := by
  induction s generalizing pre m pos with
  | nil =>
    refine ⟨[(m, pre)], .cons hne halike (.nil _) (by simp), ?_⟩
    rw [View.runs, spans_eq, List.filterMap_cons]
    cases spanOf? (m, pre) <;> rfl
  | cons c s ih =>
    rw [located, View.runs]
    split_ifs with hm
    · -- the run goes on
      have halike' : ∀ d ∈ pre ++ [(pos, c)], (ms[d.1]?).getD .plain = m :=
        List.forall_mem_append.2 ⟨halike, List.forall_mem_singleton.2 hm.symm⟩
      obtain ⟨gs, hcut, hruns⟩ := ih (by simp) halike' (pos + c.utf8Size)
      refine ⟨gs, by simpa using hcut, ?_⟩
      rw [← hruns, ← hm, List.map_append, List.reverse_append]
      rfl
    · -- a run of the next mark begins
      have halike' : ∀ d ∈ [(pos, c)], (ms[d.1]?).getD .plain = (ms[pos]?).getD .plain :=
        List.forall_mem_singleton.2 rfl
      obtain ⟨gs, hcut, hruns⟩ := ih (List.cons_ne_nil _ _) halike' (pos + c.utf8Size)
      refine ⟨(m, pre) :: gs, .cons hne halike hcut ?_, ?_⟩
      · obtain ⟨rest, hs, rfl⟩ := hcut.exists_head
        intro g hg
        obtain rfl := Option.some.inj hg
        exact hm
      · rw [spans_eq, List.filterMap_cons]
        simp only [List.map_cons, List.map_nil, List.reverse_singleton] at hruns
        rw [hruns]
        cases spanOf? (m, pre) <;> rfl

theorem exists_cut (ms : List Mark) (pos : Nat) (s : List Char) :
    ∃ gs, Cut (fun p => (ms[p]?).getD .plain) (located pos s) gs ∧ View.runs ms pos none s = gs.filterMap spanOf? := by
  cases s with
  | nil => exact ⟨[], .nil _, rfl⟩
  | cons c s =>
    have halike : ∀ d ∈ [(pos, c)], (ms[d.1]?).getD .plain = (ms[pos]?).getD .plain :=
      List.forall_mem_singleton.2 rfl
    exact exists_cut_runs (List.cons_ne_nil _ _) halike (pos + c.utf8Size) s

theorem style?_eq_none : m.style? = none ↔ m = .hidden := by cases m <;> simp [Mark.style?]

/-- the characters of cells are those that are not hidden -/
theorem map_fst_cellsOf (mark : Nat → Mark) (cs : List (Nat × Char)) :
    (cellsOf mark cs).map Prod.fst = (cs.filter fun c => mark c.1 ≠ .hidden).map Prod.snd := by
  induction cs with
  | nil => rfl
  | cons c cs ih =>
    rw [cellsOf] at ih ⊢
    by_cases hc : mark c.1 = .hidden
    · rw [List.filterMap_cons_none (by simp [hc, Mark.style?]), ih, List.filter_cons_of_neg (by simpa using hc)]
    · obtain ⟨st, hst⟩ := Option.ne_none_iff_exists'.1 (mt style?_eq_none.1 hc)
      rw [List.filterMap_cons_some (by rw [hst]; rfl), List.map_cons, ih, List.filter_cons_of_pos (by simpa using hc),
        List.map_cons]

/-- what the spans of the characters of a stretch are, for a mark of each byte -/
structure Shows (mark : Nat → Mark) (cs : List (Nat × Char)) (spans : List Span) : Prop where
  /-- the runs that are not hidden, in order, each in its style; there is one way to cut them -/
  runs : ∃ gs, Cut mark cs gs ∧ (∀ hs, Cut mark cs hs → hs = gs) ∧ spans = gs.filterMap spanOf?
  nonempty : ∀ sp ∈ spans, sp.text ≠ []
  /-- together they are the characters that are not hidden -/
  text : spans.flatMap Span.text = (cs.filter fun c => mark c.1 ≠ .hidden).map Prod.snd

/-- **The spans of a stretch between two places are its runs**, whatever the marks are. A character has the mark of its
first byte, and is plain past the end of the marks. -/
theorem lineSpans_cut (h1 : IsPlace text e.start) (h2 : IsPlace text e.stop) (hle : e.start ≤ e.stop)
    (ms : List Mark) : ∃ l, slice? text e.start e.stop = some l ∧
      Shows (fun p => (ms[p]?).getD .plain) (located e.start l) (View.lineSpans text e ms) := by
  obtain ⟨l, hl⟩ := h1.exists_slice h2 hle
  obtain ⟨gs, hcut, hruns⟩ := exists_cut ms e.start l
  have hspans : View.lineSpans text e ms = gs.filterMap spanOf? := by rw [View.lineSpans, hl, Option.getD_some, hruns]
  refine ⟨l, hl, ⟨⟨gs, hcut, fun hs hs' => hs'.unique hcut, hspans⟩, ?_, ?_⟩⟩
  · intro sp hsp
    rw [hspans] at hsp
    obtain ⟨g, hg, hsp⟩ := List.mem_filterMap.1 hsp
    obtain ⟨st, -, rfl⟩ := Option.map_eq_some_iff.1 hsp
    simpa using hcut.nonempty g hg
  · rw [← map_fst_cells, cells_lineSpans hl, map_fst_cellsOf]

/-- marks that end before the text does and change inside a character -/
theorem lineSpans_cut_short_marks :
    let text := "xé*b日c".toList
    let e : Extent := ⟨1, 9⟩
    let ms : List Mark := [.plain, .styled .bold, .hidden, .hidden, .styled .bold, .plain]
    IsPlace text e.start ∧ IsPlace text e.stop ∧ e.start ≤ e.stop ∧
      (∃ l, slice? text e.start e.stop = some l ∧
        Shows (fun p => (ms[p]?).getD .plain) (located e.start l) (View.lineSpans text e ms)) ∧
      View.lineSpans text e ms =
        [⟨['é'], Style.ofKind .bold⟩, ⟨['b'], Style.ofKind .bold⟩, ⟨['日', 'c'], Style.plain⟩] := by
  intro text e ms
  have h1 : IsPlace text e.start := ⟨['x'], "é*b日c".toList, by decide, by decide⟩
  have h2 : IsPlace text e.stop := ⟨text, [], by decide, by decide⟩
  have hle : e.start ≤ e.stop := by decide
  exact ⟨h1, h2, hle, lineSpans_cut h1 h2 hle ms, by decide⟩

end MarkVeil.Viewer
