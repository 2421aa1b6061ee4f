/-
What happens to a view while a document is read.

The cursor moves a line or is set, the view scrolls to it, and the document is decorated (`Step`); no step changes the
document (`run_document`). Main results:
- `update_settles`: what a decoration leaves depends on the document, the line of the cursor and the options alone, so
  nothing of an earlier one stays;
- `follow_nearest`: to scroll is to go to the nearest place from which the cursor is seen;
- `cursor_in_view`: a view that scrolls after each move of the cursor shows it, shows nothing behind the document's end
  that it need not show, and never jumps.
-/
import Mathlib.Data.Nat.Dist
import MarkVeil.Proofs.Viewer.Drawn
import MarkVeil.Proofs.Viewer.Screen

namespace MarkVeil.Viewer

open MarkVeil.Text
open MarkVeil.Decoration (Kind Range Reader extract)
open MarkVeil.Editor (Groups Options Selection Shown shown)

inductive Move where
  | down
  | up
  deriving DecidableEq, Repr

inductive Step where
  | move (m : Move)
  | cursor (line : Nat)
  | follow (height : Nat)
  | update (o : Options)
  deriving DecidableEq, Repr

variable {read : Reader} {o : Options} {v w : View} {g : Groups} {s : List Char} {path : String} {steps : List Step}
  {m : Move} {height n : Nat}

namespace View

def move (v : View) : Move → View
  | .down => v.nextLine
  | .up => v.previousLine

def step (v : View) (a : Step) (read : Reader := Token.parse) : View :=
  match a with
  | .move m => v.move m
  | .cursor line => { v with cursor := line }
  | .follow height => v.follow height
  | .update o => (v.update o read).2

def run (v : View) (steps : List Step) (read : Reader := Token.parse) : View :=
  steps.foldl (fun v a => v.step a read) v

theorem run_append (v : View) (a b : List Step) : v.run (a ++ b) read = (v.run a read).run b read := List.foldl_append

/-! ## The document -/

structure SameDocument (v w : View) : Prop where
  path : w.path = v.path
  text : w.text = v.text
  lines : w.lines = v.lines

theorem SameDocument.trans {u : View} (h : SameDocument u v) (h' : SameDocument v w) : SameDocument u w :=
  ⟨h'.path.trans h.path, h'.text.trans h.text, h'.lines.trans h.lines⟩

/-- calls change only what is applied -/
theorem foldl_apply_document (calls : List Editor.Call) (v : View) : SameDocument v (calls.foldl apply v) := by
  induction calls generalizing v with
  | nil => exact ⟨rfl, rfl, rfl⟩
  | cons c calls ih =>
    have happly : SameDocument v (v.apply c) := ⟨rfl, rfl, rfl⟩
    exact happly.trans (ih (v.apply c))

theorem step_document (read : Reader) (v : View) (a : Step) : SameDocument v (v.step a read) := by
  cases a with
  | move m =>
    cases m with
    | down =>
      simp only [step, move, nextLine]
      split_ifs <;> exact ⟨rfl, rfl, rfl⟩
    | up => exact ⟨rfl, rfl, rfl⟩
  | cursor line => exact ⟨rfl, rfl, rfl⟩
  | follow height =>
    rw [step, follow_eq]
    exact ⟨rfl, rfl, rfl⟩
  | update o => exact foldl_apply_document _ v

/-- **No step changes the document.** -/
theorem run_document (read : Reader) (v : View) (steps : List Step) : SameDocument v (v.run steps read) := by
  induction steps generalizing v with
  | nil => exact ⟨rfl, rfl, rfl⟩
  | cons a steps ih => exact (step_document read v a).trans (ih (v.step a read))

end View

/-! ## What is applied -/

/-- a range is off a line of its document -/
def OffLine (s : List Char) (n : Nat) (r : Range) : Prop :=
  n < (LineIndex.ofText s).lineOf r.start ∨ (LineIndex.ofText s).lineOf r.stop < n

instance (s : List Char) (n : Nat) (r : Range) : Decidable (OffLine s n r) := inferInstanceAs (Decidable (_ ∨ _))

/-- the groups for a document with the cursor on the line `n` -/
structure Settled (o : Options) (s : List Char) (n : Nat) (g : Groups) (read : Reader := Token.parse) : Prop where
  /-- the document's ranges of each enabled kind, in order, without those on the line of the cursor if it is revealed -/
  held : ∀ k, g.get k = ((extract s read).filter fun r =>
    r.kind = k ∧ k ∉ o.disabledKinds ∧ (o.revealSelectedLines = true → OffLine s n r)).map Range.extent
  /-- the kinds that have a range, in order -/
  listed : g.entries = (Kind.all.filter fun k => g.get k ≠ []).map fun k => (k, g.get k)

/-- they are the only ones -/
theorem Settled.unique {g' : Groups} (h : Settled o s n g read) (h' : Settled o s n g' read) : g = g' := by
  have hget : g.get = g'.get := funext fun k => (h.held k).trans (h'.held k).symm
  have hentries : g.entries = g'.entries := by rw [h.listed, h'.listed, hget]
  cases g
  cases g'
  exact congrArg Groups.mk hentries

theorem shown_host (o : Options) (v : View) (r : Range) :
    Shown o v.host r ↔ r.kind ∉ o.disabledKinds ∧ (o.revealSelectedLines = true → OffLine v.text v.cursor r) := by
  simp [Shown, View.host, Selection.line, Selection.between, Selection.Misses, OffLine]

theorem settled_shown (read : Reader) (o : Options) (v : View) :
    Settled o v.text v.cursor (Groups.ofFun (shown o v.host · read)) read where
  held k := by
    rw [Groups.get_ofFun, shown]
    refine congrArg (List.map Range.extent) (List.filter_congr fun r _ => ?_)
    rw [decide_eq_decide, shown_host]
    refine and_congr_right ?_
    rintro rfl
    rfl
  listed := by simpa using Groups.entries_ofFun (shown o v.host · read)

/-- what a decoration with the options `o` makes of a view of the document `s` -/
structure Settles (o : Options) (s : List Char) (v : View) (read : Reader := Token.parse) : Prop where
  /-- the groups take the place of whatever was applied -/
  allowed : o.appliesTo "markdown" = true →
    ∃ g, v.update o read = (some g, { v with applied := g }) ∧ ∀ g', Settled o s v.cursor g' read ↔ g' = g
  /-- a second decoration changes nothing -/
  again : (v.update o read).2.update o read = v.update o read
  /-- nor does one of another language -/
  other : o.appliesTo "markdown" = false → v.update o read = (none, v)

theorem update_other (hlang : o.appliesTo "markdown" = false) (v : View) : v.update o read = (none, v) := by
  have hhost : o.appliesTo v.host.language = false := hlang
  rw [View.update, Editor.update_other hhost]
  rfl

/-- **What was applied before makes no difference** to a decoration. -/
theorem update_applied (hlines : v.lines = LineIndex.ofText v.text) (hlang : o.appliesTo "markdown" = true)
    (g : Groups) : View.update o { v with applied := g } read = v.update o read := by
  have hhost : View.host { v with applied := g } = v.host := rfl
  have hlines' : View.lines { v with applied := g } = LineIndex.ofText (View.text { v with applied := g }) := hlines
  rw [update_eq hlines' hlang, update_eq hlines hlang, hhost]

theorem update_again (hlines : v.lines = LineIndex.ofText v.text) (o : Options) :
    (v.update o read).2.update o read = v.update o read := by
  cases hlang : o.appliesTo "markdown" with
  | true =>
    have hsnd : (v.update o read).2 = { v with applied := Groups.ofFun (shown o v.host · read) } :=
      congrArg Prod.snd (update_eq hlines hlang)
    rw [hsnd, update_applied hlines hlang]
  | false => rw [update_other hlang, update_other hlang]

/-- **What a decoration leaves does not depend on the steps before it**, except for the line that the cursor is on.
This holds with every reader of tokens. -/
theorem update_settles (read : Reader) (o : Options) (path : String) (s : List Char) (steps : List Step) :
    Settles o s ((View.ofText path s).run steps read) read := by
  have hdoc := View.run_document read (View.ofText path s) steps
  generalize (View.ofText path s).run steps read = v at hdoc
  have htext : v.text = s := hdoc.text
  have hlines : v.lines = LineIndex.ofText v.text := hdoc.lines.trans (congrArg LineIndex.ofText htext.symm)
  refine ⟨fun hlang => ?_, update_again hlines o, fun hlang => update_other hlang v⟩
  have hsettled : Settled o s v.cursor (Groups.ofFun (shown o v.host · read)) read := htext ▸ settled_shown read o v
  exact ⟨_, update_eq hlines hlang, fun g' => ⟨fun h => h.unique hsettled, fun h => h ▸ hsettled⟩⟩

/-- after the cursor has moved from a heading to bold text, the bold text is no longer decorated -/
theorem update_settles_second_line :
    let s := "# T\n**b**".toList
    let v := (View.ofText "a.md" s).run [.update Options.default, .move .down]
    v.applied.entries = [(.hide, [⟨4, 6⟩, ⟨7, 9⟩]), (.bold, [⟨6, 7⟩])] ∧
      (v.update Options.default).2.applied.entries = [(.hide, [⟨0, 1⟩]), (.heading1, [⟨2, 3⟩])] ∧
      Settles Options.default s v := by
  intro s v
  exact ⟨by decide +kernel, by decide +kernel, update_settles Token.parse _ _ s _⟩

/-! ## Scrolling -/

/-- a place to scroll to, from which a view of `height` lines shows the cursor -/
def Sees (height : Nat) (v : View) (scroll : Nat) : Prop := scroll ≤ v.cursor ∧ v.cursor < scroll + height

/-- what it is to scroll to the nearest place from which the cursor is seen -/
structure Nearest (height : Nat) (v : View) : Prop where
  /-- nothing else changes -/
  only : v.follow height = { v with scroll := (v.follow height).scroll }
  sees : Sees height v (v.follow height).scroll
  nearest : ∀ scroll, Sees height v scroll → scroll ≠ (v.follow height).scroll →
    Nat.dist v.scroll (v.follow height).scroll < Nat.dist v.scroll scroll
  again : (v.follow height).follow height = v.follow height

/-- a view stays, or its first or its last line becomes that of the cursor -/
theorem scroll_cases (hheight : 0 < height) (v : View) :
    (v.follow height).scroll = v.scroll ∧ Sees height v v.scroll ∨
      (v.follow height).scroll = v.cursor ∧ v.cursor < v.scroll ∨
      (v.follow height).scroll + height = v.cursor + 1 ∧ v.scroll + height ≤ v.cursor := by
  unfold View.follow Sees
  split_ifs with habove hbelow
  · exact Or.inr (Or.inl ⟨rfl, habove⟩)
  · refine Or.inr (Or.inr ⟨?_, hbelow.2⟩)
    -- the cursor is below `height` lines at least, so the difference is exact
    exact Nat.sub_add_cancel (by omega)
  · exact Or.inl ⟨rfl, by omega, by omega⟩

/-- a view that shows its cursor stays where it is -/
theorem follow_of_sees (h : Sees height v v.scroll) : v.follow height = v := by
  obtain ⟨habove, hbelow⟩ := h
  rw [View.follow, if_neg (Nat.not_lt.2 habove), if_neg (fun hlow => absurd hbelow (Nat.not_lt.2 hlow.2))]

/-- **To scroll is to go to the nearest place from which the cursor is seen.** -/
theorem follow_nearest (hheight : 0 < height) (v : View) : Nearest height v := by
  have hsees : Sees height v (v.follow height).scroll := v.follow_scroll hheight
  have honly := v.follow_eq height
  refine ⟨honly, hsees, ?_, ?_⟩
  · intro scroll ⟨habove, hbelow⟩ hne
    have hplace := scroll_cases hheight v
    unfold Sees at hplace
    unfold Nat.dist
    omega
  · refine follow_of_sees ?_
    rw [honly]
    exact hsees

/-- the steps of a reader who moves the cursor, each followed by a scroll -/
def turns (height : Nat) (ms : List Move) : List Step := ms.flatMap fun m => [.move m, .follow height]

/-- how a view of `height` lines stands while the cursor moves -/
structure InView (height : Nat) (v : View) : Prop where
  onDocument : v.cursor < v.lines.count
  sees : Sees height v v.scroll
  /-- there are lines of the document in all of the view, unless the document is shorter than that -/
  full : v.scroll + height ≤ max v.lines.count height

/-- a move takes the cursor of a document no farther than to the next line -/
theorem move_cursor (h : v.cursor < v.lines.count) (m : Move) :
    (v.move m).cursor < v.lines.count ∧ (v.move m).cursor ≤ v.cursor + 1 ∧ v.cursor ≤ (v.move m).cursor + 1 ∧
      (v.move m).scroll = v.scroll := by
  cases m with
  | down =>
    unfold View.move View.nextLine
    split_ifs with hnext
    · exact ⟨hnext, le_rfl, (Nat.le_succ _).trans (Nat.le_succ _), rfl⟩
    · exact ⟨h, Nat.le_succ _, Nat.le_succ _, rfl⟩
  | up =>
    have hback : (v.move .up).cursor = v.cursor - 1 := rfl
    rw [hback]
    exact ⟨by omega, by omega, by omega, rfl⟩

/-- **A view that shows its cursor shows it after a move and a scroll**, and goes no farther than a line. -/
theorem InView.turn (hheight : 0 < height) (h : InView height v) (m : Move) :
    InView height ((v.move m).follow height) ∧ Nat.dist v.scroll ((v.move m).follow height).scroll ≤ 1 := by
  obtain ⟨hcursor, hdown, hup, hscroll⟩ := move_cursor h.onDocument m
  have hlines : (v.move m).lines = v.lines := (View.step_document Token.parse v (.move m)).lines
  generalize v.move m = w at hcursor hdown hup hscroll hlines
  have hsees := w.follow_scroll hheight
  have honly := w.follow_eq height
  have hplace := scroll_cases hheight w
  obtain ⟨-, ⟨habove, hbelow⟩, hfull⟩ := h
  rw [hscroll] at hplace
  refine ⟨⟨?_, ?_, ?_⟩, ?_⟩
  · rw [honly, hlines]
    exact hcursor
  · rw [honly]
    exact hsees
  · rw [honly, hlines]
    simp only
    omega
  · rw [Nat.dist]
    omega

/-- the first picture of a document -/
theorem inView_ofText (hheight : 0 < height) (path : String) (s : List Char) :
    InView height (View.ofText path s) where
  onDocument := by
    have hcount := LineIndex.count_ofText s
    exact hcount ▸ Nat.succ_pos _
  sees := ⟨le_rfl, Nat.lt_add_left 0 hheight⟩
  full := by
    have hstart : (View.ofText path s).scroll + height = height := Nat.zero_add height
    rw [hstart]
    exact le_max_right _ _

theorem inView_turns (hheight : 0 < height) (h : InView height v) (ms : List Move) :
    InView height (v.run (turns height ms)) := by
  induction ms generalizing v with
  | nil => exact h
  | cons m ms ih => exact ih (h.turn hheight m).1

/-- **A view that scrolls after each move of the cursor always shows it**, shows no row behind the document's end that
it need not show, and never goes farther than a line at once.

The sum of scroll and height that `follow` compares with the cursor fits a machine word of 64 bits, so a natural number
stands for it: the height is the terminal's, a number of 16 bits, and by `InView.sees` the scroll is not past the
cursor, which by `InView.onDocument` is below the number of lines, at most one more than the text has bytes. -/
theorem cursor_in_view (hheight : 0 < height) (path : String) (s : List Char) (ms : List Move) :
    InView height ((View.ofText path s).run (turns height ms)) ∧
      (∀ m, Nat.dist ((View.ofText path s).run (turns height ms)).scroll
        ((View.ofText path s).run (turns height (ms ++ [m]))).scroll ≤ 1) ∧
      ∀ v : View, Nearest height v := by
  have hview := inView_turns hheight (inView_ofText hheight path s) ms
  refine ⟨hview, fun m => ?_, follow_nearest hheight⟩
  have hturns : turns height (ms ++ [m]) = turns height ms ++ [.move m, .follow height] := List.flatMap_append
  rw [hturns, View.run_append]
  exact (hview.turn hheight m).2

/-- two lines of a document of four, read down to its end and up again -/
theorem cursor_in_view_two_lines :
    let v := (View.ofText "a.md" "a\nb\nc\nd".toList).run (turns 2 [.down, .down, .down, .down, .up, .up])
    0 < 2 ∧ v.cursor = 1 ∧ v.scroll = 1 ∧ InView 2 v := by
  intro v
  exact ⟨by decide, by decide, by decide, (cursor_in_view (by decide) _ _ _).1⟩

end MarkVeil.Viewer
