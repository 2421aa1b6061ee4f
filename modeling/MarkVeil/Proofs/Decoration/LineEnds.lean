/-
Decorations do not depend on how lines end.

With a carriage return before every line feed of a text, a tree whose strings have no line ends collects the same
ranges at the moved offsets. Overlaps are settled by length, which the move changes, but never between nested ranges
(`keepsOrder_of_nested`), so then the decorations are the moved ones as well (`collect_crlf`).
-/
import MarkVeil.Proofs.Decoration.CarriedTree
import MarkVeil.Proofs.Decoration.Moved
import MarkVeil.Proofs.Text.Crlf

namespace MarkVeil.Token

open MarkVeil.Text

/-- no string of a token that is looked for has a line end -/
def Node.Unbroken (n : Node) : Prop :=
  Text.Unbroken n.markup.toList ∧ (∀ info ∈ n.info?, Text.Unbroken info.toList) ∧
    ∀ content ∈ n.content?, Text.Unbroken content.toList

mutual

/-- a move that leaves lines where they are leaves a tree as it is -/
theorem Node.move_eq_self {m : Move} (hm : m.lines = 0) : ∀ n : Node, n.move m = n
  | ⟨kind, span?, markup, tag, info?, content?, children⟩ => by
    have hspan : span?.map m.span = span? := by
      cases span? with
      | none => rfl
      | some span => simp only [Option.map_some, Move.span, hm, Nat.zero_add]
    rw [Node.move, hspan, moveAll_eq_self hm children]

theorem moveAll_eq_self {m : Move} (hm : m.lines = 0) : ∀ ns : List Node, moveAll m ns = ns
  | [] => rfl
  | n :: ns => by rw [moveAll, n.move_eq_self hm, moveAll_eq_self hm ns]

end

end MarkVeil.Token

namespace MarkVeil.Decoration

open MarkVeil.Text
open MarkVeil.Token (Node)

variable {m : Move} {ranges : List Range} {text : List Char} {root : Node}

/-- one range lies in the other -/
def Range.LiesIn (a b : Range) : Prop := b.start ≤ a.start ∧ a.stop ≤ b.stop

/-- styled ranges that share a byte lie one in the other -/
def Nested (ranges : List Range) : Prop :=
  ∀ a ∈ ranges, ∀ b ∈ ranges, a.kind ≠ .hide → b.kind ≠ .hide → ¬ a.Apart b → a.LiesIn b ∨ b.LiesIn a

/-- a longer range around another stays longer, however offsets move -/
theorem len_move_lt (hm : StrictMono m.offset) {a b : Range} (hab : ¬ a.Apart b) (h : a.LiesIn b) :
    ((a.move m).len < (b.move m).len ↔ a.len < b.len) ∧ ((b.move m).len < (a.move m).len ↔ b.len < a.len) := by
  obtain ⟨h1, h2⟩ := h
  unfold Range.Apart at hab
  have hstart := hm.monotone h1
  have hstop := hm.monotone h2
  have hstart' := hm.lt_iff_lt (a := b.start) (b := a.start)
  have hstop' := hm.lt_iff_lt (a := a.stop) (b := b.stop)
  have hne := hm.lt_iff_lt (a := a.start) (b := b.stop)
  have hne' := hm.lt_iff_lt (a := b.start) (b := a.stop)
  simp only [Range.len, Range.move]
  omega

theorem keepsOrder_of_nested (hm : StrictMono m.offset) (h : Nested ranges) : KeepsOrder m ranges := by
  intro a ha b hb hka hkb hab
  rcases h a ha b hb hka hkb hab with hin | hin
  · exact (len_move_lt hm hab hin).1
  · exact (len_move_lt hm (by unfold Range.Apart at hab ⊢; omega) hin).2

/-- **Decorations do not depend on how lines end.** With a carriage return before every line feed a tree collects the
moved ranges, and they settle to the moved decorations if overlapping styled ranges are nested. -/
theorem collect_crlf (hcr : '\r' ∉ text) (hroot : ∀ n ∈ root.preorder, n.Unbroken) :
    collect (.ofText (crlf text)) root = (collect (.ofText text) root).map (·.move (.crlf text)) ∧
      (Nested (collect (.ofText text) root) →
        ofTree (.ofText (crlf text)) root = (ofTree (.ofText text) root).map (·.move (.crlf text))) := by
  have hcarries := carries_crlf hcr
  have hcollect := collect_carried hcarries root fun n hn _ =>
    ⟨trivial, trivial, (hroot n hn).1, fun hc => (hroot n hn).2.2 _ hc, fun _ => trivial⟩
  rw [Node.move_eq_self rfl] at hcollect
  refine ⟨hcollect, fun hnested => ?_⟩
  have hlen : (Move.crlf text).offset (byteLen text) = byteLen (crlf text) := (hcarries.whole trivial).2
  have hfits : ∀ r ∈ collect (.ofText text) root,
      (r.move (.crlf text)).fits (byteLen (crlf text)) = r.fits (byteLen text) := by
    intro r _
    rw [Bool.eq_iff_iff, fits_iff, fits_iff, ← hlen]
    exact and_congr hcarries.mono.lt_iff_lt hcarries.mono.le_iff_le
  rw [ofTree, hcollect, ofTree]
  exact resolve_move hcarries.mono (keepsOrder_of_nested hcarries.mono hnested) hfits

/-- the tokens of strong emphasis of two words on two lines -/
def strongTree (first second : String) : Node :=
  { kind := .document
    children := [
      { kind := .inline, span? := some ⟨0, 2⟩, children := [
          { kind := .strongOpen, span? := some (.line 0), markup := "**" },
          { kind := .text, span? := some (.line 0), content? := some first },
          { kind := .softBreak, span? := some (.line 0) },
          { kind := .text, span? := some (.line 1), content? := some second },
          { kind := .strongClose, span? := some (.line 1), markup := "**" }] }] }

theorem collect_crlf_strong :
    '\r' ∉ "**a\nb**".toList ∧ (∀ n ∈ (strongTree "a" "b").preorder, n.Unbroken) ∧
      Nested (collect (.ofText "**a\nb**".toList) (strongTree "a" "b")) ∧
      ofTree (.ofText (crlf "**a\nb**".toList)) (strongTree "a" "b") =
        [.hide 0 2, .styled 2 6 .bold, .hide 6 8] := by
  have hcr : '\r' ∉ "**a\nb**".toList := by decide
  have htree : ∀ n ∈ (strongTree "a" "b").preorder, n.Unbroken := by
    simp [strongTree, Node.preorder, Node.preorderAll, Node.Unbroken, Text.Unbroken]
  have hnested : Nested (collect (.ofText "**a\nb**".toList) (strongTree "a" "b")) := by
    unfold Nested Range.Apart Range.LiesIn
    decide
  refine ⟨hcr, htree, hnested, ?_⟩
  rw [(collect_crlf hcr htree).2 hnested]
  decide

end MarkVeil.Decoration
