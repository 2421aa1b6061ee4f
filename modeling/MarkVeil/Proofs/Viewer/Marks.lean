/-
How bytes are marked, and how marked characters are drawn.

Painting stretches sets the marks of their bytes and no others, so where no byte is in two styled stretches the order
does not matter: `getElem?_marks` gives the mark of every byte. Drawing a line cuts it into runs, and the runs together
are its characters that are not hidden, each in the style of its mark (`cells_lineSpans`).
-/
import MarkVeil.Proofs.Decoration.Runs
import MarkVeil.Proofs.Text.Place
import MarkVeil.Viewer.View

namespace MarkVeil.Viewer

open MarkVeil.Text
open MarkVeil.Decoration (Kind)
open MarkVeil.Editor (Groups)

variable {m : Mark} {ms : List Mark} {e : Extent} {es : List Extent} {k : Kind} {g : Groups} {n p pos : Nat}
  {s l : List Char}

namespace View

/-! ## Painting -/

@[simp] theorem length_paint (m : Mark) (ms : List Mark) (e : Extent) : (paint m ms e).length = ms.length := by
  unfold paint
  split_ifs with h
  · simp only [List.length_append, List.length_take, List.length_replicate, List.length_drop]
    omega
  · rfl

/-- a stretch of the text sets the marks of its bytes and no others -/
theorem getElem?_paint (h1 : e.start ≤ e.stop) (h2 : e.stop ≤ ms.length) (m : Mark) (p : Nat) :
    (paint m ms e)[p]? = if e.Has p then some m else ms[p]? := by
  have htake : (ms.take e.start).length = e.start := by rw [List.length_take]; omega
  rw [paint, if_pos ⟨h1, h2⟩]
  by_cases hlt : p < e.start
  · rw [List.append_assoc, List.getElem?_append_left (by omega), List.getElem?_take_of_lt hlt,
      if_neg fun h : e.Has p => absurd h.1 (by omega)]
  by_cases hin : p < e.stop
  · rw [List.append_assoc, List.getElem?_append_right (by omega), List.getElem?_append_left (by simp; omega),
      List.getElem?_replicate_of_lt (by omega), if_pos (show e.Has p from ⟨by omega, hin⟩)]
  · rw [List.getElem?_append_right (by simp; omega), List.getElem?_drop, if_neg fun h : e.Has p => hin h.2]
    congr 1
    simp only [List.length_append, List.length_replicate, htake]
    omega

@[simp] theorem length_foldl_paint (m : Mark) (ms : List Mark) (es : List Extent) :
    (es.foldl (paint m) ms).length = ms.length := by
  induction es generalizing ms with
  | nil => rfl
  | cons e es ih => rw [List.foldl_cons, ih, length_paint]

theorem getElem?_foldl_paint (h : ∀ e ∈ es, e.start ≤ e.stop ∧ e.stop ≤ ms.length) (m : Mark) (p : Nat) :
    (es.foldl (paint m) ms)[p]? = if ∃ e ∈ es, e.Has p then some m else ms[p]? := by
  induction es generalizing ms with
  | nil => simp
  | cons e es ih =>
    obtain ⟨⟨h1, h2⟩, hes⟩ := List.forall_mem_cons.1 h
    rw [List.foldl_cons, ih (by simpa using hes), getElem?_paint h1 h2]
    simp only [List.exists_mem_cons_iff]
    by_cases hp : ∃ e ∈ es, e.Has p
    · simp [hp]
    · simp [hp]

/-- paint the stretches of each kind, kind by kind -/
def paintAll (entries : List (Kind × List Extent)) (ms : List Mark) : List Mark :=
  entries.foldl (fun ms entry => entry.2.foldl (paint (.styled entry.1)) ms) ms

/-- where all stretches that hold a byte are of one kind, the byte is marked with that kind -/
theorem getElem?_paintAll {entries : List (Kind × List Extent)}
    (h : ∀ x ∈ entries, ∀ e ∈ x.2, e.start ≤ e.stop ∧ e.stop ≤ ms.length)
    (hk : ∀ x ∈ entries, (∃ e ∈ x.2, e.Has p) → x.1 = k) :
    (paintAll entries ms)[p]? = if ∃ x ∈ entries, ∃ e ∈ x.2, e.Has p then some (.styled k) else ms[p]? := by
  induction entries generalizing ms with
  | nil => simp [paintAll]
  | cons x entries ih =>
    obtain ⟨hx, hentries⟩ := List.forall_mem_cons.1 h
    obtain ⟨hkx, hkentries⟩ := List.forall_mem_cons.1 hk
    rw [paintAll, List.foldl_cons, ← paintAll, ih (by simpa using hentries) hkentries, getElem?_foldl_paint hx]
    simp only [List.exists_mem_cons_iff]
    by_cases hp : ∃ e ∈ x.2, e.Has p
    · simp [hp, hkx hp]
    · simp only [hp, if_false, false_or]

theorem length_paintAll (entries : List (Kind × List Extent)) (ms : List Mark) :
    (paintAll entries ms).length = ms.length := by
  induction entries generalizing ms with
  | nil => rfl
  | cons x entries ih => rw [paintAll, List.foldl_cons, ← paintAll, ih, length_foldl_paint]

end View

/-! ## Marks of groups -/

/-- a hidden stretch has the byte -/
def Hidden (g : Groups) (p : Nat) : Prop := ∃ e ∈ g.get .hide, e.Has p

/-- a stretch of a styled kind has the byte -/
def StyledAs (g : Groups) (k : Kind) (p : Nat) : Prop := k ≠ .hide ∧ ∃ e ∈ g.get k, e.Has p

instance (g : Groups) (p : Nat) : Decidable (Hidden g p) := by unfold Hidden; infer_instance

instance (g : Groups) (k : Kind) (p : Nat) : Decidable (StyledAs g k p) := by unfold StyledAs; infer_instance

def kindAt? (g : Groups) (p : Nat) : Option Kind := Kind.all.find? fun k => StyledAs g k p

def styleAt (g : Groups) (p : Nat) : Style := ((kindAt? g p).map Style.ofKind).getD Style.plain

def markAt (g : Groups) (p : Nat) : Mark := if Hidden g p then .hidden else ((kindAt? g p).map .styled).getD .plain

/-- groups that mark the bytes of a text unambiguously -/
structure Clean (s : List Char) (g : Groups) : Prop where
  entries : g.entries = (Kind.all.filter fun k => g.get k ≠ []).map fun k => (k, g.get k)
  nonempty : ∀ k, ∀ e ∈ g.get k, e.start < e.stop
  places : ∀ k, ∀ e ∈ g.get k, IsPlace s e.start ∧ IsPlace s e.stop
  /-- a byte of a styled stretch is in no other stretch of any kind -/
  alone : ∀ k, k ≠ .hide → ∀ e ∈ g.get k, ∀ j, ∀ f ∈ g.get j, ∀ p, e.Has p → f.Has p → j = k ∧ f = e

theorem kindAt?_of_styledAs (h : Clean s g) (hk : StyledAs g k p) : kindAt? g p = some k := by
  obtain ⟨hne, e, he, hp⟩ := hk
  cases hfound : kindAt? g p with
  | none =>
    have := List.find?_eq_none.1 hfound k (Kind.mem_all k)
    simp only [decide_eq_true_eq] at this
    exact absurd ⟨hne, e, he, hp⟩ this
  | some j =>
    obtain ⟨-, f, hf, hfp⟩ : StyledAs g j p := by simpa using List.find?_some hfound
    rw [(h.alone k hne e he j f hf p hp hfp).1]

theorem kindAt?_eq_none (h : ∀ k, ¬ StyledAs g k p) : kindAt? g p = none :=
  List.find?_eq_none.2 fun k _ => by simpa using h k

/-- a styled byte is not hidden -/
theorem not_hidden_of_styledAs (h : Clean s g) (hk : StyledAs g k p) : ¬ Hidden g p := by
  rintro ⟨f, hf, hfp⟩
  obtain ⟨hne, e, he, hp⟩ := hk
  exact hne (h.alone k hne e he .hide f hf p hp hfp).1.symm

theorem mem_entries (h : Clean s g) {x : Kind × List Extent} (hx : x ∈ g.entries) : x.2 = g.get x.1 := by
  rw [h.entries] at hx
  obtain ⟨k, -, rfl⟩ := List.mem_map.1 hx
  rfl

/-- styled stretches are painted from the entries of styled kinds -/
theorem exists_entry_iff (h : Clean s g) :
    (∃ x ∈ g.entries.filter (·.1.isStyled), ∃ e ∈ x.2, e.Has p) ↔ ∃ k, StyledAs g k p := by
  constructor
  · rintro ⟨x, hx, e, he, hp⟩
    obtain ⟨hx, hk⟩ := List.mem_filter.1 hx
    exact ⟨x.1, by simpa [Kind.isStyled] using hk, e, mem_entries h hx ▸ he, hp⟩
  · rintro ⟨k, hk, e, he, hp⟩
    refine ⟨(k, g.get k), List.mem_filter.2 ⟨?_, by simpa [Kind.isStyled] using hk⟩, e, he, hp⟩
    rw [h.entries]
    exact List.mem_map.2 ⟨k, List.mem_filter.2 ⟨Kind.mem_all k, by simpa using List.ne_nil_of_mem he⟩, rfl⟩

/-- **Every byte is marked by the one stretch that has it**, whatever the order of painting. -/
theorem getElem?_marks {v : View} (h : Clean v.text v.applied) (hp : p < byteLen v.text) :
    v.marks[p]? = some (markAt v.applied p) := by
  have hfits : ∀ k, ∀ e ∈ v.applied.get k, e.start ≤ e.stop ∧ e.stop ≤ byteLen v.text := fun k e he =>
    ⟨(h.nonempty k e he).le, (h.places k e he).2.le⟩
  have hentries : ∀ x ∈ v.applied.entries.filter (·.1.isStyled), ∀ e ∈ x.2,
      e.start ≤ e.stop ∧ e.stop ≤ (List.replicate (byteLen v.text) Mark.plain).length := by
    intro x hx e he
    rw [mem_entries h (List.mem_filter.1 hx).1] at he
    simpa using hfits x.1 e he
  have hmarks : v.marks = (v.applied.get .hide).foldl (View.paint .hidden)
      (View.paintAll (v.applied.entries.filter (·.1.isStyled)) (List.replicate (byteLen v.text) .plain)) := rfl
  rw [hmarks, View.getElem?_foldl_paint (by simpa [View.length_paintAll] using hfits .hide), markAt]
  split_ifs with hhidden hnot hnot
  · rfl
  · exact absurd hhidden hnot
  · exact absurd hnot hhidden
  -- the byte is in styled stretches of one kind, or in none
  by_cases hstyled : ∃ k, StyledAs v.applied k p
  · obtain ⟨k, hk⟩ := hstyled
    have hone : ∀ x ∈ v.applied.entries.filter (·.1.isStyled), (∃ e ∈ x.2, e.Has p) → x.1 = k := by
      rintro x hx ⟨f, hf, hfp⟩
      obtain ⟨hne, e, he, hep⟩ := hk
      rw [mem_entries h (List.mem_filter.1 hx).1] at hf
      exact (h.alone k hne e he x.1 f hf p hep hfp).1
    rw [View.getElem?_paintAll hentries hone, if_pos ((exists_entry_iff h).2 ⟨k, hk⟩), kindAt?_of_styledAs h hk]
    rfl
  · have hone : ∀ x ∈ v.applied.entries.filter (·.1.isStyled), (∃ e ∈ x.2, e.Has p) → x.1 = .bold := fun x hx hp =>
      absurd ((exists_entry_iff h).1 ⟨x, hx, hp⟩) hstyled
    rw [View.getElem?_paintAll hentries hone, if_neg (mt (exists_entry_iff h).1 hstyled),
      List.getElem?_replicate_of_lt hp, kindAt?_eq_none (not_exists.1 hstyled)]
    rfl

/-- a stretch between places has all bytes of a character or none -/
theorem has_character {a b : List Char} {c : Char} {i : Nat} (h1 : IsPlace (a ++ c :: b) e.start)
    (h2 : IsPlace (a ++ c :: b) e.stop) (hi : i < c.utf8Size) : e.Has (byteLen a + i) ↔ e.Has (byteLen a) := by
  have hplace : ∀ n, IsPlace (a ++ c :: b) n → n ≤ byteLen a ∨ byteLen a + c.utf8Size ≤ n := by
    rintro n ⟨x, y, hxy, rfl⟩
    by_contra hn
    push Not at hn
    obtain ⟨d, rfl, hd⟩ := append_split hxy hn.1.le
    cases d with
    | nil => simp at hn
    | cons d ds =>
      obtain ⟨rfl, -⟩ := List.cons.inj hd
      simp only [byteLen_append, byteLen_cons] at hn
      omega
  unfold Extent.Has
  have := hplace _ h1
  have := hplace _ h2
  omega

/-- **All bytes of a character carry the same mark.** -/
theorem markAt_character (h : Clean s g) {a b : List Char} {c : Char} (hs : s = a ++ c :: b) {i : Nat}
    (hi : i < c.utf8Size) : markAt g (byteLen a + i) = markAt g (byteLen a) := by
  subst hs
  have hhas : ∀ k, (∃ e ∈ g.get k, e.Has (byteLen a + i)) ↔ ∃ e ∈ g.get k, e.Has (byteLen a) := fun k =>
    exists_congr fun e => and_congr_right fun he => has_character (h.places k e he).1 (h.places k e he).2 hi
  have hkind : kindAt? g (byteLen a + i) = kindAt? g (byteLen a) := by
    unfold kindAt? StyledAs
    simp only [hhas]
  rw [markAt, markAt, hkind]
  simp only [Hidden, hhas]

/-! ## Runs of characters -/

/-- characters with their offsets, the first at `pos` -/
def located (pos : Nat) : List Char → List (Nat × Char)
  | [] => []
  | c :: s => (pos, c) :: located (pos + c.utf8Size) s

/-- the characters of spans, each with its style -/
def cells (spans : List Span) : List (Char × Style) := spans.flatMap fun sp => sp.text.map fun c => (c, sp.style)

/-- how a character with a mark is drawn -/
def Mark.style? : Mark → Option Style
  | .plain => some Style.plain
  | .hidden => none
  | .styled k => some (Style.ofKind k)

theorem mem_located {c : Char} (h : (p, c) ∈ located pos s) : ∃ a b, s = a ++ c :: b ∧ p = pos + byteLen a := by
  induction s generalizing pos with
  | nil => simp [located] at h
  | cons d s ih =>
    rcases List.mem_cons.1 h with heq | h
    · obtain ⟨rfl, rfl⟩ := Prod.mk.inj heq
      exact ⟨[], s, rfl, rfl⟩
    · obtain ⟨a, b, rfl, rfl⟩ := ih h
      exact ⟨d :: a, b, rfl, by rw [byteLen_cons, Nat.add_assoc]⟩

/-- the cells of characters with their marks -/
def cellsOf (mark : Nat → Mark) (cs : List (Nat × Char)) : List (Char × Style) :=
  cs.filterMap fun c => (mark c.1).style?.map fun st => (c.2, st)

@[simp] theorem cells_append (a b : List Span) : cells (a ++ b) = cells a ++ cells b := List.flatMap_append

theorem cells_spans (r : View.Run) :
    cells r.spans = (r.mark.style?.map fun st => r.chars.reverse.map fun c => (c, st)).getD [] := by
  obtain ⟨m, cs⟩ := r
  cases m <;> simp [View.Run.spans, cells, Mark.style?]

/-- the cells of the characters of a run, with those already in it -/
theorem cells_runs (ms : List Mark) (pos : Nat) (r? : Option View.Run) (s : List Char) :
    cells (View.runs ms pos r? s) =
      (r?.map fun r => cells r.spans).getD [] ++ cellsOf (fun p => (ms[p]?).getD .plain) (located pos s) := by
  induction s generalizing pos r? with
  | nil => cases r? <;> simp [View.runs, located, cellsOf, cells]
  | cons c s ih =>
    cases r? with
    | none =>
      rw [View.runs, ih]
      simp only [Option.map_some, Option.map_none, Option.getD_some, Option.getD_none, List.nil_append, located,
        cells_spans, cellsOf, List.filterMap_cons]
      cases ((ms[pos]?).getD .plain).style? <;> simp
    | some r =>
      rw [View.runs]
      split_ifs with hm
      · rw [ih]
        simp only [Option.map_some, Option.getD_some, located, cells_spans, cellsOf, List.filterMap_cons, ← hm]
        cases r.mark.style? <;> simp
      · rw [cells_append, ih]
        simp only [Option.map_some, Option.getD_some, located, cells_spans, cellsOf, List.filterMap_cons]
        cases ((ms[pos]?).getD .plain).style? <;> simp

/-- characters that all carry one mark continue a run with this mark -/
theorem runs_same {ms : List Mark} {cs : List Char} (h : ∀ c ∈ located pos s, (ms[c.1]?).getD .plain = m) :
    View.runs ms pos (some ⟨m, cs⟩) s = View.Run.spans ⟨m, s.reverse ++ cs⟩ := by
  induction s generalizing pos cs with
  | nil => rfl
  | cons c s ih =>
    obtain ⟨hc, hs⟩ := List.forall_mem_cons.1 h
    rw [View.runs, if_pos (by simpa using hc.symm), hc, ih hs, List.reverse_cons, List.append_assoc]
    rfl

/-- plain characters are one plain span -/
theorem runs_plain {ms : List Mark} (h : ∀ c ∈ located pos s, (ms[c.1]?).getD .plain = .plain) :
    View.runs ms pos none s = if s = [] then [] else [⟨s, Style.plain⟩] := by
  cases s with
  | nil => rfl
  | cons c s =>
    obtain ⟨hc, hs⟩ := List.forall_mem_cons.1 h
    rw [View.runs, hc, runs_same hs, if_neg (List.cons_ne_nil c s)]
    simp [View.Run.spans]

/-- **A drawn line is its characters that are not hidden, each in the style of its mark.** -/
theorem cells_lineSpans (h : slice? s e.start e.stop = some l) (ms : List Mark) :
    cells (View.lineSpans s e ms) = cellsOf (fun p => (ms[p]?).getD .plain) (located e.start l) := by
  rw [View.lineSpans, h, Option.getD_some, cells_runs]
  rfl

end MarkVeil.Viewer
