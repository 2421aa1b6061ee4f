/-
The lines that tokens cover.

An element covers the lines from its first to its last byte (`spanOf_eq`). `IsHull` says that a span is the least one
that holds the lines of some tokens, and `hull` is that span (`exists_isHull`). A token is `Bounded` if it covers a line
at least and no line that the text does not have, and hulls of such tokens are bounded again.
-/
import MarkVeil.Proofs.Text.Positions
import MarkVeil.Proofs.Token.Recursion

namespace MarkVeil.Token

open MarkVeil.Text

def lastByte (e : Extent) : Nat := max (e.stop - 1) e.start

/-- the token covers at least one of so many lines, and only these -/
def Bounded (lines : Nat) (n : Node) : Prop :=
  ∃ span, n.span? = some span ∧ span.start < span.stop ∧ span.stop ≤ lines

/-- the span holds the lines of the tokens, and no smaller one does -/
structure IsHull (span : LineSpan) (ns : List Node) : Prop where
  holds : ∀ n ∈ ns, ∀ u, n.span? = some u → span.start ≤ u.start ∧ u.stop ≤ span.stop
  first : ∃ n ∈ ns, ∃ u, n.span? = some u ∧ u.start = span.start
  last : ∃ n ∈ ns, ∃ u, n.span? = some u ∧ u.stop = span.stop

variable {n : Node} {ns : List Node} {a b span : LineSpan} {lines : Nat}

/-! ## Elements -/

theorem lineOf_le_lastLineOf (src : Source) (e : Extent) : src.lines.lineOf e.start ≤ lastLineOf src e :=
  LineIndex.lineOf_mono _ (Nat.le_max_right _ _)

/-- an element stands on the lines from its first to its last byte -/
theorem spanOf_eq (src : Source) (e : Extent) : spanOf src e = ⟨src.lines.lineOf e.start, lastLineOf src e + 1⟩ := by
  rw [spanOf, LineSpan.ofLines, Nat.max_eq_left (Nat.succ_le_succ (lineOf_le_lastLineOf src e))]

theorem last_spanOf (src : Source) (e : Extent) : (spanOf src e).last = lastLineOf src e := by
  rw [spanOf_eq, LineSpan.last]
  exact Nat.max_eq_left (lineOf_le_lastLineOf src e)

theorem line_eq (k : Nat) : LineSpan.line k = ⟨k, k + 1⟩ := by
  rw [LineSpan.line, LineSpan.ofLines, Nat.max_self]

/-! ## Hulls -/

namespace IsHull

/-- one token that covers lines, and others that cover none -/
theorem head (hn : n.span? = some a) (hns : ∀ m ∈ ns, m.span? = none) : IsHull a (n :: ns) := by
  refine ⟨?_, ⟨n, List.mem_cons_self, a, hn, rfl⟩, n, List.mem_cons_self, a, hn, rfl⟩
  intro m hm u hu
  rcases List.mem_cons.1 hm with rfl | hm
  · rw [hn, Option.some.injEq] at hu
    subst hu
    exact ⟨le_rfl, le_rfl⟩
  · simp [hns m hm] at hu

/-- a token that covers no lines changes nothing -/
theorem skip (h : IsHull span ns) (hn : n.span? = none) : IsHull span (n :: ns) := by
  obtain ⟨m, hm, hfirst⟩ := h.first
  obtain ⟨m', hm', hlast⟩ := h.last
  refine ⟨?_, ⟨m, List.mem_cons_of_mem _ hm, hfirst⟩, m', List.mem_cons_of_mem _ hm', hlast⟩
  intro x hx u hu
  rcases List.mem_cons.1 hx with rfl | hx
  · simp [hn] at hu
  · exact h.holds x hx u hu

theorem cons (h : IsHull b ns) (hn : n.span? = some a) : IsHull (a.hull b) (n :: ns) := by
  obtain ⟨m, hm, u, hu, hfirst⟩ := h.first
  obtain ⟨m', hm', u', hu', hlast⟩ := h.last
  refine ⟨?_, ?_, ?_⟩
  · intro x hx v hv
    rcases List.mem_cons.1 hx with rfl | hx
    · rw [hn, Option.some.injEq] at hv
      subst hv
      exact ⟨Nat.min_le_left _ _, Nat.le_max_left _ _⟩
    · obtain ⟨h1, h2⟩ := h.holds x hx v hv
      exact ⟨(Nat.min_le_right _ _).trans h1, h2.trans (Nat.le_max_right _ _)⟩
  · rcases Nat.le_total a.start b.start with hle | hle
    · exact ⟨n, List.mem_cons_self, a, hn, (Nat.min_eq_left hle).symm⟩
    · exact ⟨m, List.mem_cons_of_mem _ hm, u, hu, hfirst.trans (Nat.min_eq_right hle).symm⟩
  · rcases Nat.le_total b.stop a.stop with hle | hle
    · exact ⟨n, List.mem_cons_self, a, hn, (Nat.max_eq_left hle).symm⟩
    · exact ⟨m', List.mem_cons_of_mem _ hm', u', hu', hlast.trans (Nat.max_eq_right hle).symm⟩

theorem reverse (h : IsHull span ns) : IsHull span ns.reverse where
  holds := fun n hn => h.holds n (List.mem_reverse.1 hn)
  first := by
    obtain ⟨n, hn, hspan⟩ := h.first
    exact ⟨n, List.mem_reverse.2 hn, hspan⟩
  last := by
    obtain ⟨n, hn, hspan⟩ := h.last
    exact ⟨n, List.mem_reverse.2 hn, hspan⟩

/-- the hull of bounded tokens is bounded -/
theorem bounds (h : IsHull span ns) (hns : ∀ n ∈ ns, Bounded lines n) :
    span.start < span.stop ∧ span.stop ≤ lines := by
  obtain ⟨n, hn, u, hu, hfirst⟩ := h.first
  obtain ⟨m, hm, v, hv, hlast⟩ := h.last
  obtain ⟨u', hu', hlt, -⟩ := hns n hn
  obtain ⟨v', hv', -, hle⟩ := hns m hm
  rw [hu, Option.some.injEq] at hu'
  rw [hv, Option.some.injEq] at hv'
  subst hu' hv'
  obtain ⟨-, hstop⟩ := h.holds n hn u hu
  omega

end IsHull

theorem hull_eq_none (h : hull ns = none) : ∀ n ∈ ns, n.span? = none := by
  induction ns with
  | nil => simp
  | cons m ns ih =>
    rw [hull] at h
    cases hm : m.span? with
    | none =>
      rw [hm] at h
      exact List.forall_mem_cons.2 ⟨hm, ih h⟩
    | some a =>
      rw [hm] at h
      cases hns : hull ns <;> simp [hns] at h

theorem isHull_hull (h : hull ns = some span) : IsHull span ns := by
  induction ns generalizing span with
  | nil => simp [hull] at h
  | cons n ns ih =>
    rw [hull] at h
    cases hn : n.span? with
    | none =>
      rw [hn] at h
      exact (ih h).skip hn
    | some a =>
      rw [hn] at h
      cases hns : hull ns with
      | none =>
        rw [hns, Option.some.injEq] at h
        subst h
        exact .head hn (hull_eq_none hns)
      | some b =>
        rw [hns, Option.some.injEq] at h
        subst h
        exact (ih hns).cons hn

/-- **Tokens of which one covers lines have a hull, and it is computed.** -/
theorem exists_isHull (hn : n ∈ ns) (hspan : n.span? = some a) : ∃ span, hull ns = some span ∧ IsHull span ns := by
  cases h : hull ns with
  | none =>
    simp [hull_eq_none h n hn] at hspan
  | some span => exact ⟨span, rfl, isHull_hull h⟩

end MarkVeil.Token
