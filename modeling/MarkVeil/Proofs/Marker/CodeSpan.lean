/-
Runs of backticks are found where they stand.

What `findRun?` finds is a run of that length (`findRun?_sound`), and a run behind text that has no run of its length
is found (`findRun?_behind`). What is found in a text is found in a text around it (`findRun?_inside`); a search that
finds nothing there may find a run further on. Main results:
- `findRun?_eq_some`, `findRun?_eq_none`: the search answers with the first run of its length, and with nothing if
  there is none; a run that the search begins in the middle of counts from there on.
-/
import MarkVeil.Marker.CodeSpan
import MarkVeil.Proofs.Text.Context
import MarkVeil.Proofs.Text.First
import MarkVeil.Proofs.Text.Search

namespace MarkVeil.Marker

open MarkVeil.Text

variable {s l m a b : List Char} {start len pos p q : Nat} {inRun : Bool}

theorem runFrom?_sound (h : runFrom? len inRun pos s = some p) :
    ∃ a b, s = a ++ List.replicate len '`' ++ b ∧ p = pos + byteLen a := by
  induction s generalizing inRun pos with
  | nil => simp [runFrom?] at h
  | cons c s ih =>
    simp only [runFrom?] at h
    split_ifs at h with hc hrun
    · obtain rfl : pos = p := by simpa using h
      refine ⟨[], (c :: s).drop len, ?_, rfl⟩
      rw [List.nil_append, ← hrun.2, replicate_append_drop]
    · obtain ⟨a, b, rfl, rfl⟩ := ih h
      refine ⟨c :: a, b, rfl, ?_⟩
      have hsize : '`'.utf8Size = 1 := rfl
      rw [byteLen_cons, hc, hsize, Nat.add_assoc]
    · obtain ⟨a, b, rfl, rfl⟩ := ih h
      exact ⟨c :: a, b, rfl, by rw [byteLen_cons, Nat.add_assoc]⟩

/-- what is found is a run of that many backticks, at or after the start -/
theorem findRun?_sound (h : findRun? s start len = some p) :
    slice? s p (p + len) = some (List.replicate len '`') ∧ start ≤ p := by
  unfold findRun? at h
  split at h
  next pos rest hplace =>
    obtain ⟨a, rfl, rfl, hle⟩ := of_placeFrom? hplace
    obtain ⟨c, d, rfl, rfl⟩ := runFrom?_sound h
    refine ⟨slice?_eq_some.2 ⟨a ++ c, d, by simp, by simp, ?_⟩, by omega⟩
    rw [byteLen_replicate_one rfl]
  next => simp at h

/-! ## Runs inside a larger text -/

theorem findRun?_pos (h : findRun? s start len = some p) : 0 < len := by
  have hpos : ∀ {inRun pos s}, runFrom? len inRun pos s = some p → 0 < len := by
    intro inRun pos s h
    induction s generalizing inRun pos with
    | nil => simp [runFrom?] at h
    | cons c s ih =>
      simp only [runFrom?] at h
      split_ifs at h with hc hrun
      · rw [← hrun.2, hc]
        simp [countRun, runLen]
      · exact ih h
      · exact ih h
  unfold findRun? at h
  split at h
  · exact hpos h
  · simp at h

/-- the first run is counted from where the text begins -/
theorem runFrom?_add (len : Nat) (inRun : Bool) (n pos : Nat) (s : List Char) :
    runFrom? len inRun (n + pos) s = (runFrom? len inRun pos s).map (n + ·) := by
  induction s generalizing inRun pos with
  | nil => rfl
  | cons c s ih =>
    simp only [runFrom?]
    split_ifs
    · rfl
    · rw [Nat.add_assoc, ih]
    · rw [Nat.add_assoc, ih]

/-- text that ends in a line feed, or behind which nothing follows: no run of it goes on behind it -/
def Closed (l b : List Char) : Prop := l.getLast? = some '\n' ∨ b = []

theorem Closed.tail {c : Char} (h : Closed (c :: l) b) (hl : l ≠ []) : Closed l b := by
  rcases h with h | h
  · obtain ⟨d, l, rfl⟩ := List.exists_cons_of_ne_nil hl
    exact Or.inl (by rwa [List.getLast?_cons_cons] at h)
  · exact Or.inr h

theorem Closed.suffix (h : Closed l b) {front rest : List Char} (hl : l = front ++ rest) (hrest : rest ≠ []) :
    Closed rest b := by
  rcases h with h | h
  · rw [hl, List.getLast?_append_of_ne_nil _ hrest] at h
    exact Or.inl h
  · exact Or.inr h

/-- a run ends before a text does that does not end in a backtick -/
theorem countRun_append (hl : l ≠ []) (hlast : l.getLast? ≠ some '`') : countRun '`' (l ++ b) = countRun '`' l := by
  induction l with
  | nil => exact absurd rfl hl
  | cons c l ih =>
    simp only [countRun, List.cons_append, runLen]
    split_ifs with hc
    · have hne : l ≠ [] := by
        rintro rfl
        rw [List.getLast?_singleton] at hlast
        exact hlast (congrArg some (by simpa using hc))
      rw [List.getLast?_cons_of_ne_nil hne] at hlast
      exact congrArg (· + 1) (ih hne hlast)
    · rfl

theorem countRun_inside (h : Closed l b) (hl : l ≠ []) : countRun '`' (l ++ b) = countRun '`' l := by
  rcases h with h | rfl
  · exact countRun_append hl (by simp [h])
  · rw [List.append_nil]

/-- a run found in a text is found with anything behind it; a run found only then is behind it -/
theorem runFrom?_inside (h : Closed l b) (len : Nat) (inRun : Bool) (pos : Nat) :
    (∀ p, runFrom? len inRun pos l = some p → runFrom? len inRun pos (l ++ b) = some p) ∧
      ∀ p, runFrom? len inRun pos l = none → runFrom? len inRun pos (l ++ b) = some p → pos + byteLen l ≤ p := by
  induction l generalizing inRun pos with
  | nil =>
    refine ⟨by simp [runFrom?], ?_⟩
    intro p _ hp
    obtain ⟨c, d, -, rfl⟩ := runFrom?_sound hp
    simp
  | cons c l ih =>
    have htail : ∀ (inRun : Bool) (pos : Nat),
        (∀ p, runFrom? len inRun pos l = some p → runFrom? len inRun pos (l ++ b) = some p) ∧
          ∀ p, runFrom? len inRun pos l = none → runFrom? len inRun pos (l ++ b) = some p → pos + byteLen l ≤ p := by
      intro inRun pos
      by_cases hl : l = []
      · subst hl
        refine ⟨by simp [runFrom?], ?_⟩
        intro p _ hp
        obtain ⟨c, d, -, rfl⟩ := runFrom?_sound hp
        simp
      · exact ih (h.tail hl) inRun pos
    have hcount : countRun '`' (c :: (l ++ b)) = countRun '`' (c :: l) :=
      countRun_inside h (List.cons_ne_nil c l)
    have hsize : '`'.utf8Size = 1 := rfl
    simp only [List.cons_append, runFrom?, hcount, byteLen_cons]
    split_ifs with hc hrun
    · exact ⟨fun p hp => hp, fun p hp => by simp at hp⟩
    · rw [hc, hsize, ← Nat.add_assoc]
      exact htail true (pos + 1)
    · rw [← Nat.add_assoc]
      exact htail false (pos + c.utf8Size)

/-- **A run of backticks in a text is found in every text around it**; one that is found only there is behind it. -/
theorem findRun?_inside (h : Closed l b) (a : List Char) (start len : Nat) :
    (∀ p, findRun? l start len = some p → findRun? (a ++ l ++ b) (byteLen a + start) len = some (byteLen a + p)) ∧
      ∀ q, findRun? l start len = none → findRun? (a ++ l ++ b) (byteLen a + start) len = some q →
        byteLen a + byteLen l ≤ q := by
  rw [findRun?, findRun?, List.append_assoc, placeFrom?_add]
  by_cases hstart : start ≤ byteLen l
  · rw [placeFrom?_inside hstart]
    cases hplace : placeFrom? l start with
    | none => simp
    | some x =>
      obtain ⟨pos, rest⟩ := x
      obtain ⟨front, rfl, rfl, -⟩ := of_placeFrom? hplace
      simp only [Option.map_some, runFrom?_add]
      by_cases hrest : rest = []
      · subst hrest
        refine ⟨by simp [runFrom?], ?_⟩
        intro q _ hq
        obtain ⟨p, hp, rfl⟩ := Option.map_eq_some_iff.1 hq
        obtain ⟨c, d, -, rfl⟩ := runFrom?_sound hp
        simp
      · obtain ⟨hfound, hbehind⟩ := runFrom?_inside (h.suffix rfl hrest) len false (byteLen front)
        refine ⟨fun p hp => by rw [hfound p hp]; rfl, ?_⟩
        intro q hnone hq
        obtain ⟨p, hp, rfl⟩ := Option.map_eq_some_iff.1 hq
        have := hbehind p hnone hp
        rw [byteLen_append]
        omega
  · rw [placeFrom?_eq_none (by omega : byteLen l < start)]
    refine ⟨by simp, ?_⟩
    intro q _ hq
    cases hplace : placeFrom? (l ++ b) start with
    | none => simp [hplace] at hq
    | some x =>
      obtain ⟨pos, rest⟩ := x
      obtain ⟨front, -, rfl, hle⟩ := of_placeFrom? hplace
      simp only [hplace, Option.map_some, runFrom?_add] at hq
      obtain ⟨p, hp, rfl⟩ := Option.map_eq_some_iff.1 hq
      obtain ⟨c, d, -, rfl⟩ := runFrom?_sound hp
      omega

/-! ## The first run -/

/-- at or after the start, exactly `len` backticks follow an offset; none stands before it, unless it is the start -/
structure RunFrom (s : List Char) (start len p : Nat) : Prop where
  pos : 0 < len
  le : start ≤ p
  stands : ∃ a b, s = a ++ (List.replicate len '`' ++ b) ∧ byteLen a = p ∧ (p = start ∨ a.getLast? ≠ some '`') ∧
    b.head? ≠ some '`'

/-- a run of `len` backticks at a place of a text that begins at `pos`: it begins there and stops after so many -/
def ticks? (len pos : Nat) (a t : List Char) : Option Nat :=
  if t.head? = some '`' ∧ a.getLast? ≠ some '`' ∧ countRun '`' t = len then some (pos + byteLen a) else none

theorem runFrom?_eq_first? (len pos : Nat) (a s : List Char) :
    runFrom? len (a.getLast? == some '`') (pos + byteLen a) s = first? (ticks? len pos) a s := by
  induction s generalizing a with
  | nil => simp [runFrom?, first?, ticks?]
  | cons c s ih =>
    have hnext := ih (a ++ [c])
    rw [List.getLast?_concat, byteLen_append, byteLen_cons, byteLen_nil, Nat.add_zero, ← Nat.add_assoc] at hnext
    rw [first?, ← hnext, runFrom?]
    by_cases hc : c = '`'
    · subst hc
      have hsize : '`'.utf8Size = 1 := rfl
      by_cases hrun : a.getLast? ≠ some '`' ∧ countRun '`' ('`' :: s) = len
      · rw [if_pos rfl, if_pos (by simpa using hrun), ticks?, if_pos ⟨rfl, hrun⟩, Option.some_or]
      · rw [if_pos rfl, if_neg (by simpa using hrun), ticks?, if_neg fun h => hrun h.2, Option.none_or, hsize,
          beq_self_eq_true]
    · have hne : (some c == some '`') = false := by simpa using hc
      rw [if_neg hc, ticks?, if_neg fun h => hc (Option.some.inj h.1), Option.none_or, hne]

section Place

variable (hplace : placeFrom? (a ++ s) start = some (byteLen a, s))
include hplace

theorem findRun?_eq_first? (len : Nat) : findRun? (a ++ s) start len = first? (ticks? len (byteLen a)) [] s := by
  simp only [findRun?, hplace]
  exact runFrom?_eq_first? len (byteLen a) [] s

/-- from the place where a search begins, runs are where they are read -/
theorem runFrom_iff_ticks? (hlen : 0 < len) :
    RunFrom (a ++ s) start len q ↔ ∃ b t, s = b ++ t ∧ ticks? len (byteLen a) b t = some q := by
  obtain ⟨-, -, -, hstart⟩ := of_placeFrom? hplace
  constructor
  · rintro ⟨-, hle, b, t, hs, rfl, hbefore, ht⟩
    obtain ⟨c, rfl, rfl⟩ := append_split hs (placeFrom?_le hplace ⟨b, _, hs, rfl⟩ hle)
    have hhead : (List.replicate len '`' ++ t).head? = some '`' := by simp [List.head?_replicate, hlen.ne']
    have hlast : c.getLast? ≠ some '`' := by
      intro hc
      have hne : c ≠ [] := by
        rintro rfl
        exact Option.some_ne_none _ hc.symm
      -- a backtick right before the run is behind the start
      have hbehind : byteLen (a ++ c) = start := by
        refine hbefore.resolve_right (not_not.2 ?_)
        rwa [List.getLast?_append_of_ne_nil _ hne]
      have hpos := byteLen_pos hne
      rw [byteLen_append] at hbehind
      omega
    refine ⟨c, _, rfl, ?_⟩
    rw [ticks?, if_pos ⟨hhead, hlast, countRun_replicate_append _ ht⟩, byteLen_append]
  · rintro ⟨b, t, rfl, h⟩
    unfold ticks? at h
    split_ifs at h with hrun
    obtain ⟨-, hlast, rfl⟩ := hrun
    obtain rfl := Option.some.inj h
    refine ⟨hlen, hstart.trans (Nat.le_add_right _ _), a ++ b, t.drop (countRun '`' t), ?_, byteLen_append a b, ?_,
      head?_drop_countRun '`' t⟩
    · rw [replicate_append_drop, List.append_assoc]
    · by_cases hb : b = []
      · subst hb
        rw [byteLen_nil, Nat.add_zero, List.append_nil]
        refine or_iff_not_imp_left.2 fun hne => ?_
        -- the start is inside a character, which is no backtick
        obtain ⟨c, hc, hsize⟩ := placeFrom?_inner hplace rfl hne
        rw [hc]
        rintro ⟨⟩
        exact absurd hsize (by decide)
      · exact Or.inr (by rwa [List.getLast?_append_of_ne_nil _ hb])

end Place

/-- **Nothing is found exactly if there is no such run.** -/
theorem findRun?_eq_none : findRun? s start len = none ↔ ∀ q, ¬ RunFrom s start len q := by
  rcases Nat.eq_zero_or_pos len with rfl | hlen
  · refine iff_of_true ?_ fun q h => absurd h.pos (Nat.lt_irrefl 0)
    exact Option.eq_none_iff_forall_ne_some.2 fun p h => absurd (findRun?_pos h) (Nat.lt_irrefl 0)
  cases hplace : placeFrom? s start with
  | none =>
    have hlt := placeFrom?_eq_none_iff.1 hplace
    simp only [findRun?, hplace, true_iff]
    rintro q ⟨-, hle, a, b, rfl, rfl, -⟩
    rw [byteLen_append] at hlt
    omega
  | some x =>
    obtain ⟨pos, rest⟩ := x
    obtain ⟨a, rfl, rfl, -⟩ := of_placeFrom? hplace
    simp only [findRun?_eq_first? hplace, first?_eq_none, List.nil_append, runFrom_iff_ticks? hplace hlen]
    constructor
    · rintro h q ⟨b, t, hs, hq⟩
      simp [h b t hs] at hq
    · intro h b t hs
      exact Option.eq_none_iff_forall_ne_some.2 fun q hq => h q ⟨b, t, hs, hq⟩

/-- **What is found is the first such run.** -/
theorem findRun?_eq_some :
    findRun? s start len = some p ↔ RunFrom s start len p ∧ ∀ q, RunFrom s start len q → p ≤ q := by
  rcases Nat.eq_zero_or_pos len with rfl | hlen
  · refine iff_of_false (fun h => absurd (findRun?_pos h) (Nat.lt_irrefl 0)) ?_
    exact fun h => absurd h.1.pos (Nat.lt_irrefl 0)
  cases hplace : placeFrom? s start with
  | none =>
    have hnone : findRun? s start len = none := by simp only [findRun?, hplace]
    simp only [hnone, reduceCtorEq, false_iff]
    exact fun h => findRun?_eq_none.1 hnone p h.1
  | some x =>
    obtain ⟨pos, rest⟩ := x
    obtain ⟨a, rfl, rfl, -⟩ := of_placeFrom? hplace
    have hread : ∀ {b t q}, ticks? len (byteLen a) b t = some q → q = byteLen a + byteLen b := by
      intro b t q h
      unfold ticks? at h
      split_ifs at h
      exact (Option.some.inj h).symm
    simp only [findRun?_eq_first? hplace, first?_eq_some, List.nil_append, runFrom_iff_ticks? hplace hlen]
    constructor
    · rintro ⟨b, t, hs, hp, hbefore⟩
      refine ⟨⟨b, t, hs, hp⟩, ?_⟩
      rintro q ⟨c, d, hs', hq⟩
      have hlen := hread hp
      have hlen' := hread hq
      by_contra hlt
      simp [hbefore c d hs' (by omega)] at hq
    · rintro ⟨⟨b, t, hs, hp⟩, hleast⟩
      refine ⟨b, t, hs, hp, ?_⟩
      intro c d hs' hlt
      refine Option.eq_none_iff_forall_ne_some.2 fun q hq => ?_
      have hle := hleast q ⟨c, d, hs', hq⟩
      have hlen := hread hp
      have hlen' := hread hq
      omega

/-! ## Behind text without such a run -/

/-- no run of backticks of the text has this length -/
def RunFree (len : Nat) (s : List Char) : Prop := ∀ a k b, s = a ++ (List.replicate k '`' ++ b) →
  a.getLast? ≠ some '`' → b.head? ≠ some '`' → k ≠ len

theorem RunFree.of_not_mem (h : '`' ∉ s) (hlen : 0 < len) : RunFree len s := by
  rintro a k b rfl - - rfl
  exact h (by simp [hlen.ne'])

/-- a run of that many backticks is found behind text without such a run -/
theorem findRun?_behind (a : List Char) (hm : RunFree len m) (hlast : m.getLast? ≠ some '`') (hlen : 0 < len)
    (hb : b.head? ≠ some '`') :
    findRun? (a ++ (m ++ (List.replicate len '`' ++ b))) (byteLen a) len = some (byteLen a + byteLen m) := by
  have hhead : (List.replicate len '`' ++ b).head? = some '`' := by simp [List.head?_replicate, hlen.ne']
  rw [findRun?_eq_first? (placeFrom?_append a _), first?_eq_some]
  refine ⟨m, _, rfl, ?_, ?_⟩
  · rw [List.nil_append, ticks?, if_pos ⟨hhead, hlast, countRun_replicate_append len hb⟩]
  · intro c d hs hlt
    obtain ⟨r, rfl, rfl⟩ := append_split hs.symm hlt.le
    have hr : r ≠ [] := by
      rintro rfl
      simp at hlt
    have hrlast : r.getLast? ≠ some '`' := by rwa [List.getLast?_append_of_ne_nil _ hr] at hlast
    rw [List.nil_append, ticks?, if_neg]
    rintro ⟨-, hc, hcount⟩
    -- a run that begins before the end of `m` ends there too
    rw [countRun_append hr hrlast] at hcount
    exact hm c _ _ (by rw [replicate_append_drop]) hc (head?_drop_countRun '`' r) hcount

/-- a run of that many backticks behind text without backticks is found -/
theorem findRun?_complete (a : List Char) (hm : '`' ∉ m) (hlen : 0 < len) (hb : b.head? ≠ some '`') :
    findRun? (a ++ (m ++ (List.replicate len '`' ++ b))) (byteLen a) len = some (byteLen a + byteLen m) :=
  findRun?_behind a (.of_not_mem hm hlen) (fun h => hm (List.mem_of_getLast? h)) hlen hb

end MarkVeil.Marker
