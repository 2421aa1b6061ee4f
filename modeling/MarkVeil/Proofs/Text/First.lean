/-
The first place of a text where something is read.

`first?` goes along a text and answers with what a reader gives at the first place where it gives anything; the reader
is shown what stands before the place and what stands from there on. The searches for runs of backticks, links and
images are such searches, so what they find and what they miss follows from `first?_eq_some` and `first?_eq_none`.
`Least` is the first offset where something holds, from an offset on.
-/
import MarkVeil.Proofs.Text.Place

namespace MarkVeil.Text

variable {α : Type} {read? : List Char → List Char → Option α} {before s : List Char} {x : α}

/-- what a reader gives at the first place of a text where it gives anything; `before` stands before the text -/
def first? (read? : (before rest : List Char) → Option α) (before : List Char) : List Char → Option α
  | [] => read? before []
  | c :: s => (read? before (c :: s)).or (first? read? (before ++ [c]) s)

/-- nothing is found exactly if nothing is read at any place -/
theorem first?_eq_none : first? read? before s = none ↔ ∀ a t, s = a ++ t → read? (before ++ a) t = none := by
  induction s generalizing before with
  | nil =>
    rw [first?]
    constructor
    · intro h a t hs
      obtain ⟨rfl, rfl⟩ := List.append_eq_nil_iff.1 hs.symm
      rwa [List.append_nil]
    · intro h
      simpa using h [] [] rfl
  | cons c s ih =>
    rw [first?, Option.or_eq_none_iff, ih]
    constructor
    · rintro ⟨hhere, hlater⟩ a t hs
      rcases List.cons_eq_append_iff.1 hs with ⟨rfl, rfl⟩ | ⟨a, rfl, rfl⟩
      · rwa [List.append_nil]
      · simpa using hlater a t rfl
    · intro h
      refine ⟨by simpa using h [] (c :: s) rfl, ?_⟩
      rintro a t rfl
      simpa using h (c :: a) t rfl

/-- **What is found is read at a place, and nothing is read at any place before it.** -/
theorem first?_eq_some : first? read? before s = some x ↔ ∃ a t, s = a ++ t ∧ read? (before ++ a) t = some x ∧
    ∀ c d, s = c ++ d → byteLen c < byteLen a → read? (before ++ c) d = none := by
  induction s generalizing before with
  | nil =>
    rw [first?]
    constructor
    · intro h
      exact ⟨[], [], rfl, by rwa [List.append_nil], by simp⟩
    · rintro ⟨a, t, hs, h, -⟩
      obtain ⟨rfl, rfl⟩ := List.append_eq_nil_iff.1 hs.symm
      rwa [List.append_nil] at h
  | cons c s ih =>
    rw [first?, Option.or_eq_some_iff, ih]
    constructor
    · rintro (hhere | ⟨hhere, a, t, rfl, hread, hbefore⟩)
      · exact ⟨[], c :: s, rfl, by rwa [List.append_nil], by simp⟩
      · refine ⟨c :: a, t, rfl, by simpa using hread, ?_⟩
        intro b d hs hlt
        rcases List.cons_eq_append_iff.1 hs with ⟨rfl, rfl⟩ | ⟨b, rfl, htail⟩
        · rwa [List.append_nil]
        · simpa using hbefore b d htail (by simpa using hlt)
    · rintro ⟨a, t, hs, hread, hbefore⟩
      rcases List.cons_eq_append_iff.1 hs with ⟨rfl, rfl⟩ | ⟨a, rfl, rfl⟩
      · exact Or.inl (by rwa [List.append_nil] at hread)
      · refine Or.inr ⟨?_, a, t, rfl, by simpa using hread, ?_⟩
        · simpa using hbefore [] _ rfl (byteLen_pos (List.cons_ne_nil c a))
        · intro b d hs hlt
          simpa using hbefore (c :: b) d (by rw [hs, List.cons_append]) (by simpa using hlt)

/-! ## The least offset -/

/-- the least offset from `start` on where something holds -/
structure Least (holds : Nat → Prop) (start p : Nat) : Prop where
  stands : holds p
  le : start ≤ p
  least : ∀ q, holds q → start ≤ q → p ≤ q

variable {holds : Nat → Prop} {start p q : Nat}

theorem Least.unique (hp : Least holds start p) (hq : Least holds start q) : p = q :=
  Nat.le_antisymm (hp.least q hq.stands hq.le) (hq.least p hp.stands hp.le)

/-- what holds where the search begins is found there -/
theorem least_start (h : holds start) : Least holds start start := ⟨h, le_rfl, fun _ _ hle => hle⟩

end MarkVeil.Text
