/-
Overlaps are settled byte by byte.

`Wins` says which range gets a byte: no hide holds the byte, and of the styled ranges that hold it this one is the
shortest, the first among equals. `pointwise` gives each hide once and each styled range the maximal runs of the bytes
it wins. Main results:
- `resolve_pointwise`: `resolve` is `pointwise`, and a byte that a styled range holds and no hide lies in exactly one
  piece;
- `resolve_disjoint`, `resolve_hides_differ`, `resolve_ends`, `mem_resolve`: what later modules use of it;
- `resolve_eq_map`: ranges that differ come to one range each, if each styled one gets the bytes of one extent.
-/
import MarkVeil.Decoration.Overlap
import MarkVeil.Proofs.Decoration.Claimed

namespace MarkVeil.Decoration

open MarkVeil.Text

/-! ## The pointwise rule -/

/-- range `r`, number `i` of all, gets the byte: no hide holds it, and no styled range that holds it is shorter, or as
long and earlier -/
def Wins (ranges : List Range) (len i : Nat) (r : Range) (q : Nat) : Prop :=
  r.extent.Has q ∧ (∀ h ∈ ranges, h.fits len = true → h.kind = .hide → ¬ h.extent.Has q) ∧
    ∀ x ∈ ranges.zipIdx, x.1.fits len = true → x.1.kind ≠ .hide → x.1.extent.Has q →
      r.len < x.1.len ∨ r.len = x.1.len ∧ i ≤ x.2

instance (ranges : List Range) (len i : Nat) (r : Range) (q : Nat) : Decidable (Wins ranges len i r q) := by
  unfold Wins; infer_instance

/-- the maximal runs of the bytes that a range gets -/
def wonRuns (ranges : List Range) (len i : Nat) (r : Range) : List Extent :=
  runsFrom (fun q => Wins ranges len i r q) r.start r.len

/-- an earlier hide has the same bytes -/
def repeatsHide (earlier : List Range) (len : Nat) (r : Range) : Bool :=
  earlier.any fun h => h.fits len && h.kind == .hide && h.extent == r.extent

/-- what a range, number `i` of all, comes to: a hide once, a styled range in the runs it gets -/
def settledAt (ranges : List Range) (len i : Nat) (r : Range) : List Range :=
  if r.fits len then
    if r.kind = .hide then if repeatsHide (ranges.take i) len r then [] else [r]
    else (wonRuns ranges len i r).map r.on
  else []

/-- overlaps settled byte by byte, in order of the ranges -/
def pointwise (ranges : List Range) (len : Nat) : List Range :=
  ranges.zipIdx.flatMap fun x => settledAt ranges len x.2 x.1

theorem runs_wonRuns (ranges : List Range) (len i : Nat) (r : Range) :
    Runs (Wins ranges len i r) (wonRuns ranges len i r) := by
  refine (runs_runsFrom _ _ _).congr ?_
  intro q
  simp only [decide_eq_true_eq]
  refine ⟨fun h => h.2.2, fun h => ⟨h.1.1, ?_, h⟩⟩
  have h1 := h.1.1
  have h2 := h.1.2
  simp only [Range.extent, Range.len] at h1 h2 ⊢
  omega

/-! ## Sorting by length -/

/-- shorter, or as long and earlier -/
def Before (x y : Nat × Range) : Prop := x.2.len < y.2.len ∨ x.2.len = y.2.len ∧ x.1 < y.1

theorem Before.trans {x y z : Nat × Range} (hxy : Before x y) (hyz : Before y z) : Before x z := by
  unfold Before at *; omega

theorem insertByLen_perm (x : Nat × Range) (ys : List (Nat × Range)) : (insertByLen x ys).Perm (x :: ys) := by
  induction ys with
  | nil => rfl
  | cons y ys ih =>
    simp only [insertByLen]
    split_ifs
    · rfl
    · exact (ih.cons y).trans (List.Perm.swap x y ys)

theorem sortByLen_perm (rs : List (Nat × Range)) : (sortByLen rs).Perm rs := by
  induction rs with
  | nil => rfl
  | cons x rs ih => exact (insertByLen_perm x _).trans (ih.cons x)

theorem insertByLen_sorted {x : Nat × Range} {ys : List (Nat × Range)} (h : ys.Pairwise Before)
    (hx : ∀ y ∈ ys, x.1 < y.1) : (insertByLen x ys).Pairwise Before := by
  induction ys with
  | nil => simp [insertByLen]
  | cons y ys ih =>
    obtain ⟨hy, hys⟩ := List.pairwise_cons.1 h
    have hxy := hx y List.mem_cons_self
    simp only [insertByLen]
    split_ifs with hle
    · have hb : Before x y := by unfold Before; omega
      refine List.pairwise_cons.2 ⟨?_, h⟩
      intro z hz
      rcases List.mem_cons.1 hz with rfl | hz
      · exact hb
      · exact hb.trans (hy z hz)
    · refine List.pairwise_cons.2 ⟨?_, ih hys fun z hz => hx z (List.mem_cons_of_mem _ hz)⟩
      intro z hz
      rcases List.mem_cons.1 ((insertByLen_perm x ys).mem_iff.1 hz) with rfl | hz
      · exact Or.inl (by omega)
      · exact hy z hz

theorem sortByLen_sorted {rs : List (Nat × Range)} (h : rs.Pairwise fun x y => x.1 < y.1) :
    (sortByLen rs).Pairwise Before := by
  induction rs with
  | nil => exact List.Pairwise.nil
  | cons x rs ih =>
    obtain ⟨hx, hrs⟩ := List.pairwise_cons.1 h
    exact insertByLen_sorted (ih hrs) fun y hy => hx y ((sortByLen_perm rs).mem_iff.1 hy)

/-! ## Claiming one after the other -/

/-- the pieces of a range are the runs of its bytes that neither the first claims nor an earlier range took -/
theorem lookup_claimAll {P : Nat → Prop} {c : Claimed} (h : Runs P c.intervals) (earlier later : List (Nat × Range))
    (i : Nat) (r : Range) (hi : ∀ x ∈ earlier, x.1 ≠ i) :
    ∃ es, (claimAll c (earlier ++ (i, r) :: later)).lookup i = some es ∧
      Runs (fun q => r.extent.Has q ∧ ¬ P q ∧ ¬ ∃ x ∈ earlier, x.2.extent.Has q) es := by
  induction earlier generalizing c P with
  | nil =>
    refine ⟨c.free r.extent, by simp [claimAll], (Claimed.runs_free h r.extent).congr fun q => by simp⟩
  | cons x earlier ih =>
    have hfree := Claimed.runs_free h x.2.extent
    have hclaim := Claimed.runs_foldl_claim h hfree.nonempty
    obtain ⟨es, hes, hruns⟩ := ih hclaim fun y hy => hi y (List.mem_cons_of_mem _ hy)
    refine ⟨es, ?_, hruns.congr ?_⟩
    · have hne : (i == x.1) = false := by simpa using (hi x List.mem_cons_self).symm
      simpa only [List.cons_append, claimAll, List.lookup_cons, hne] using hes
    · intro q
      rw [← hfree.has q]
      simp only [List.mem_cons, exists_eq_or_imp, not_or, not_and, not_not]
      tauto

/-! ## Numbered ranges -/

theorem number_append (n : Nat) (a b : List Range) : number n (a ++ b) = number n a ++ number (n + a.length) b := by
  induction a generalizing n with
  | nil => rfl
  | cons r a ih =>
    simp only [List.cons_append, number, ih, List.length_cons]
    rw [Nat.add_right_comm, Nat.add_assoc]

theorem mem_number {n : Nat} {rs : List Range} {x : Nat × Range} (h : x ∈ number n rs) :
    n ≤ x.1 ∧ x.1 < n + rs.length ∧ x.2 ∈ rs := by
  induction rs generalizing n with
  | nil => simp [number] at h
  | cons r rs ih =>
    rcases List.mem_cons.1 h with rfl | h
    · exact ⟨le_rfl, by simp, List.mem_cons_self⟩
    · obtain ⟨h1, h2, h3⟩ := ih h
      exact ⟨by omega, by simp only [List.length_cons]; omega, List.mem_cons_of_mem _ h3⟩

theorem exists_mem_number {n : Nat} {rs : List Range} {r : Range} (h : r ∈ rs) : ∃ i, (i, r) ∈ number n rs := by
  induction rs generalizing n with
  | nil => simp at h
  | cons s rs ih =>
    rcases List.mem_cons.1 h with rfl | h
    · exact ⟨n, List.mem_cons_self⟩
    · obtain ⟨i, hi⟩ := ih (n := n + 1) h
      exact ⟨i, List.mem_cons_of_mem _ hi⟩

theorem number_eq (n : Nat) (rs : List Range) : number n rs = (rs.zipIdx n).map Prod.swap := by
  induction rs generalizing n with
  | nil => rfl
  | cons r rs ih => rw [number, ih, List.zipIdx_cons, List.map_cons, Prod.swap]

theorem number_sorted (n : Nat) (rs : List Range) : (number n rs).Pairwise fun x y => x.1 < y.1 := by
  induction rs generalizing n with
  | nil => exact List.Pairwise.nil
  | cons r rs ih => exact List.pairwise_cons.2 ⟨fun x hx => (mem_number hx).1, ih _⟩

/-! ## Pieces of the kept ranges -/

theorem isStyled_iff {k : Kind} : k.isStyled = true ↔ k ≠ .hide := by simp [Kind.isStyled]

/-- the pieces that `resolve` cuts, by the numbers of the kept ranges -/
def piecesOf (kept : List Range) : List (Nat × List Extent) :=
  let rs := number 0 kept
  claimAll ((rs.filter fun r => !r.2.kind.isStyled).foldl (fun c r => c.claim r.2.extent) Claimed.empty)
    (sortByLen (rs.filter fun r => r.2.kind.isStyled))

/-- what a kept range comes to -/
def placed (kept : List Range) (x : Nat × Range) : List Range :=
  if x.2.kind.isStyled then (((piecesOf kept).lookup x.1).getD []).map x.2.on else [x.2]

theorem resolve_eq (ranges : List Range) (len : Nat) :
    resolve ranges len = (number 0 (keepFitting len [] ranges)).flatMap (placed (keepFitting len [] ranges)) := rfl

/-- the hides' claims are the runs of what they hide -/
theorem runs_hides {kept : List Range} (hne : ∀ r ∈ kept, r.start < r.stop) :
    Runs (fun q => ∃ h ∈ kept, h.kind = .hide ∧ h.extent.Has q)
      (((number 0 kept).filter fun r => !r.2.kind.isStyled).foldl (fun c r => c.claim r.2.extent)
        Claimed.empty).intervals := by
  rw [← List.foldl_map (f := fun r : Nat × Range => r.2.extent) (g := Claimed.claim)]
  refine (Claimed.runs_foldl_claim Claimed.runs_empty ?_).congr ?_
  · intro e he
    obtain ⟨x, hx, rfl⟩ := List.mem_map.1 he
    exact hne _ (mem_number (List.mem_filter.1 hx).1).2.2
  · intro q
    simp only [false_or, List.mem_map, List.mem_filter, Bool.not_eq_true', ← Bool.not_eq_true, isStyled_iff, not_not]
    constructor
    · rintro ⟨e, ⟨x, ⟨hx, hk⟩, rfl⟩, hq⟩
      exact ⟨x.2, (mem_number hx).2.2, hk, hq⟩
    · rintro ⟨h, hh, hk, hq⟩
      obtain ⟨i, hi⟩ := exists_mem_number (n := 0) hh
      exact ⟨_, ⟨_, ⟨hi, hk⟩, rfl⟩, hq⟩

/-- what a styled range gets among kept ranges, those before and those after it -/
def WinsBetween (before : List Range) (r : Range) (after : List Range) (q : Nat) : Prop :=
  r.extent.Has q ∧ (∀ h ∈ before ++ r :: after, h.kind = .hide → ¬ h.extent.Has q) ∧
    (∀ x ∈ before, x.kind ≠ .hide → x.extent.Has q → r.len < x.len) ∧
    ∀ x ∈ after, x.kind ≠ .hide → x.extent.Has q → r.len ≤ x.len

/-- in front of a range of a sorted list are those that come before it -/
theorem mem_earlier_iff {xs earlier later : List (Nat × Range)} {y : Nat × Range}
    (hxs : xs.Pairwise fun x y => x.1 < y.1) (hcut : sortByLen xs = earlier ++ y :: later) (x : Nat × Range) :
    x ∈ earlier ↔ x ∈ xs ∧ Before x y := by
  have hsorted := sortByLen_sorted hxs
  rw [hcut, List.pairwise_append] at hsorted
  obtain ⟨-, hy, hearlier⟩ := hsorted
  rw [← (sortByLen_perm xs).mem_iff, hcut]
  constructor
  · exact fun hx => ⟨List.mem_append_left _ hx, hearlier x hx y List.mem_cons_self⟩
  · rintro ⟨hx, hb⟩
    rcases List.mem_append.1 hx with hx | hx
    · exact hx
    rcases List.mem_cons.1 hx with rfl | hx
    · unfold Before at hb; omega
    · have := (List.pairwise_cons.1 hy).1 x hx
      unfold Before at *; omega

/-- a number below `r`'s is that of a range before it, a number above it that of a range after it -/
theorem before_number_iff {before after : List Range} {r : Range} {x : Nat × Range}
    (hx : x ∈ number 0 before ++ (before.length, r) :: number (before.length + 1) after) :
    Before x (before.length, r) ↔
      x ∈ number 0 before ∧ x.2.len ≤ r.len ∨ x ∈ number (before.length + 1) after ∧ x.2.len < r.len := by
  unfold Before
  constructor
  · intro hb
    rcases List.mem_append.1 hx with hx | hx
    · have := mem_number hx
      exact Or.inl ⟨hx, by simp only at hb; omega⟩
    rcases List.mem_cons.1 hx with rfl | hx
    · simp at hb
    · have := mem_number hx
      exact Or.inr ⟨hx, by simp only at hb; omega⟩
  · rintro (⟨hx, hle⟩ | ⟨hx, hlt⟩)
    · have := mem_number hx
      simp only; omega
    · have := mem_number hx
      simp only; omega

/-- the pieces of a styled range are the runs of the bytes that it gets -/
theorem lookup_piecesOf {before after : List Range} {r : Range}
    (hne : ∀ x ∈ before ++ r :: after, x.start < x.stop) (hr : r.kind ≠ .hide) :
    ∃ es, (piecesOf (before ++ r :: after)).lookup before.length = some es ∧
      Runs (WinsBetween before r after) es := by
  have hsplit : number 0 (before ++ r :: after) =
      number 0 before ++ (before.length, r) :: number (before.length + 1) after := by
    rw [number_append, Nat.zero_add, number]
  have hmem : (before.length, r) ∈
      sortByLen ((number 0 (before ++ r :: after)).filter fun x => x.2.kind.isStyled) := by
    rw [(sortByLen_perm _).mem_iff, List.mem_filter, isStyled_iff, hsplit]
    exact ⟨by simp, hr⟩
  obtain ⟨earlier, later, hcut⟩ := List.append_of_mem hmem
  have hsides : ∀ x, x ∈ earlier ↔ x ∈ number 0 (before ++ r :: after) ∧ x.2.kind ≠ .hide ∧
      (x ∈ number 0 before ∧ x.2.len ≤ r.len ∨ x ∈ number (before.length + 1) after ∧ x.2.len < r.len) := by
    intro x
    rw [mem_earlier_iff ((number_sorted 0 _).filter _) hcut, List.mem_filter, isStyled_iff, and_assoc]
    refine and_congr_right fun hx => and_congr_right fun _ => before_number_iff ?_
    rwa [hsplit] at hx
  have hnumber : ∀ x ∈ earlier, x.1 ≠ before.length := by
    intro x hx
    rcases ((hsides x).1 hx).2.2 with ⟨hx, -⟩ | ⟨hx, -⟩ <;> have := mem_number hx <;> omega
  obtain ⟨es, hes, hruns⟩ := lookup_claimAll (runs_hides hne) earlier later before.length r hnumber
  refine ⟨es, by rw [← hes, ← hcut]; rfl, hruns.congr ?_⟩
  intro q
  refine and_congr_right fun _ => and_congr (by push Not; rfl) ?_
  push Not
  constructor
  · intro h
    refine ⟨?_, ?_⟩
    · intro x hx hk hq
      obtain ⟨i, hi⟩ := exists_mem_number (n := 0) hx
      by_contra hle
      refine h _ ((hsides (i, x)).2 ⟨?_, hk, Or.inl ⟨hi, by simpa using hle⟩⟩) hq
      rw [hsplit]
      exact List.mem_append_left _ hi
    · intro x hx hk hq
      obtain ⟨i, hi⟩ := exists_mem_number (n := before.length + 1) hx
      by_contra hlt
      refine h _ ((hsides (i, x)).2 ⟨?_, hk, Or.inr ⟨hi, by simpa using hlt⟩⟩) hq
      rw [hsplit]
      exact List.mem_append_right _ (List.mem_cons_of_mem _ hi)
  · rintro ⟨hb, ha⟩ x hx hq
    obtain ⟨-, hk, ⟨hx, hle⟩ | ⟨hx, hlt⟩⟩ := (hsides x).1 hx
    · have := hb x.2 (mem_number hx).2.2 hk hq; omega
    · have := ha x.2 (mem_number hx).2.2 hk hq; omega

/-! ## Ranges that are kept -/

theorem fits_iff {len : Nat} {r : Range} : r.fits len = true ↔ r.start < r.stop ∧ r.stop ≤ len := by
  simp [Range.fits]

/-- the bytes of the hides that fit -/
def hiddenIn (len : Nat) (rs : List Range) : List Extent :=
  (rs.filter fun r => r.fits len && r.kind == .hide).map Range.extent

theorem mem_hiddenIn {len : Nat} {rs : List Range} {e : Extent} :
    e ∈ hiddenIn len rs ↔ ∃ r ∈ rs, r.fits len = true ∧ r.kind = .hide ∧ r.extent = e := by
  simp [hiddenIn, and_assoc]

theorem repeatsHide_iff {len : Nat} {rs : List Range} {r : Range} :
    repeatsHide rs len r = true ↔ r.extent ∈ hiddenIn len rs := by
  simp [repeatsHide, mem_hiddenIn, and_assoc]

/-- only the set of hides seen matters -/
theorem keepFitting_congr {len : Nat} {s t : List Extent} (h : ∀ e, e ∈ s ↔ e ∈ t) (rs : List Range) :
    keepFitting len s rs = keepFitting len t rs := by
  induction rs generalizing s t with
  | nil => rfl
  | cons r rs ih =>
    have hcons : ∀ e, e ∈ r.extent :: s ↔ e ∈ r.extent :: t := by simp [h]
    simp only [keepFitting, h, ih h, ih hcons]

theorem keepFitting_append (len : Nat) (seen : List Extent) (a b : List Range) :
    keepFitting len seen (a ++ b) = keepFitting len seen a ++ keepFitting len (hiddenIn len a ++ seen) b := by
  induction a generalizing seen with
  | nil => rfl
  | cons r a ih =>
    have hcongr : ∀ s, (∀ e, e ∈ s ↔ e ∈ hiddenIn len (r :: a) ++ seen) →
        keepFitting len s b = keepFitting len (hiddenIn len (r :: a) ++ seen) b := fun s h => keepFitting_congr h b
    simp only [List.cons_append, keepFitting]
    split_ifs with hf hk hs
    · rw [ih, hcongr]
      intro e
      simp only [List.mem_append, mem_hiddenIn, List.mem_cons, exists_eq_or_imp]
      grind
    · rw [ih, List.cons_append, hcongr]
      intro e
      simp only [List.mem_append, mem_hiddenIn, List.mem_cons, exists_eq_or_imp]
      grind
    · rw [ih, List.cons_append, hcongr]
      intro e
      simp [mem_hiddenIn, hk]
    · rw [ih, hcongr]
      intro e
      simp [mem_hiddenIn, hf]

theorem mem_of_mem_keepFitting {len : Nat} {seen : List Extent} {rs : List Range} {r : Range}
    (h : r ∈ keepFitting len seen rs) : r ∈ rs ∧ r.fits len = true := by
  induction rs generalizing seen with
  | nil => simp [keepFitting] at h
  | cons s rs ih =>
    simp only [keepFitting] at h
    split_ifs at h with hf hk hs
    · exact ⟨List.mem_cons_of_mem _ (ih h).1, (ih h).2⟩
    · rcases List.mem_cons.1 h with rfl | h
      · exact ⟨List.mem_cons_self, hf⟩
      · exact ⟨List.mem_cons_of_mem _ (ih h).1, (ih h).2⟩
    · rcases List.mem_cons.1 h with rfl | h
      · exact ⟨List.mem_cons_self, hf⟩
      · exact ⟨List.mem_cons_of_mem _ (ih h).1, (ih h).2⟩
    · exact ⟨List.mem_cons_of_mem _ (ih h).1, (ih h).2⟩

theorem styled_mem_keepFitting {len : Nat} {seen : List Extent} {rs : List Range} {r : Range} (h : r ∈ rs)
    (hf : r.fits len = true) (hk : r.kind ≠ .hide) : r ∈ keepFitting len seen rs := by
  obtain ⟨a, b, rfl⟩ := List.append_of_mem h
  rw [keepFitting_append]
  simp [keepFitting, hf, hk]

/-- of a hide that fits, its first occurrence is kept -/
theorem hide_mem_keepFitting {len : Nat} {rs : List Range} {r : Range} (seen : List Extent) (h : r ∈ rs)
    (hf : r.fits len = true) (hk : r.kind = .hide) :
    r.extent ∈ seen ∨ ∃ s ∈ keepFitting len seen rs, s.kind = .hide ∧ s.extent = r.extent := by
  induction rs generalizing seen with
  | nil => simp at h
  | cons s rs ih =>
    simp only [keepFitting]
    rcases List.mem_cons.1 h with rfl | h
    · by_cases hs : r.extent ∈ seen
      · exact Or.inl hs
      · exact Or.inr ⟨r, by simp [hf, hk, hs], hk, rfl⟩
    · split_ifs with hf' hk' hs'
      · exact ih seen h
      · rcases ih (s.extent :: seen) h with hmem | ⟨x, hx, hxk⟩
        · rcases List.mem_cons.1 hmem with he | hmem
          · exact Or.inr ⟨s, List.mem_cons_self, hk', he.symm⟩
          · exact Or.inl hmem
        · exact Or.inr ⟨x, List.mem_cons_of_mem _ hx, hxk⟩
      · rcases ih seen h with hmem | ⟨x, hx, hxk⟩
        · exact Or.inl hmem
        · exact Or.inr ⟨x, List.mem_cons_of_mem _ hx, hxk⟩
      · exact ih seen h

/-- keeping only what fits changes no byte that is hidden -/
theorem hidden_iff (len : Nat) (ranges : List Range) (q : Nat) :
    (∀ h ∈ ranges, h.fits len = true → h.kind = .hide → ¬ h.extent.Has q) ↔
      ∀ h ∈ keepFitting len [] ranges, h.kind = .hide → ¬ h.extent.Has q := by
  constructor
  · intro h r hr hk
    obtain ⟨hmem, hf⟩ := mem_of_mem_keepFitting hr
    exact h r hmem hf hk
  · intro h r hr hf hk hq
    rcases hide_mem_keepFitting [] hr hf hk with hmem | ⟨s, hs, hsk, he⟩
    · simp at hmem
    · exact h s hs hsk (he ▸ hq)

/-! ## The two agree -/

section Agree

variable {len : Nat} {before after : List Range} {r : Range}

theorem keepFitting_styled (hf : r.fits len = true) (hk : r.kind ≠ .hide) :
    keepFitting len [] (before ++ r :: after) =
      keepFitting len [] before ++ r :: keepFitting len (hiddenIn len before) after := by
  rw [keepFitting_append, List.append_nil]
  simp [keepFitting, hf, hk]

/-- a styled range that fits gets the same bytes by its number among all ranges as by its place among the kept ones -/
theorem wins_iff (hf : r.fits len = true) (hk : r.kind ≠ .hide) (q : Nat) :
    WinsBetween (keepFitting len [] before) r (keepFitting len (hiddenIn len before) after) q ↔
      Wins (before ++ r :: after) len before.length r q := by
  unfold WinsBetween Wins
  rw [hidden_iff, keepFitting_styled hf hk, List.zipIdx_append, Nat.zero_add, List.zipIdx_cons]
  refine and_congr_right fun _ => and_congr_right ?_
  intro _
  simp only [List.forall_mem_append, List.forall_mem_cons]
  constructor
  · rintro ⟨hb, ha⟩
    refine ⟨fun x hx hxf hxk hq => Or.inl ?_, fun _ _ _ => Or.inr (by simp), ?_⟩
    · exact hb x.1 (styled_mem_keepFitting (List.fst_mem_of_mem_zipIdx hx) hxf hxk) hxk hq
    · intro x hx hxf hxk hq
      have hle := ha x.1 (styled_mem_keepFitting (List.fst_mem_of_mem_zipIdx hx) hxf hxk) hxk hq
      have := List.le_snd_of_mem_zipIdx hx
      omega
  · rintro ⟨hb, -, ha⟩
    refine ⟨?_, ?_⟩
    · intro x hx hxk hq
      obtain ⟨hmem, hxf⟩ := mem_of_mem_keepFitting hx
      obtain ⟨i, hi⟩ := List.mem_iff_getElem?.1 hmem
      have hidx := List.mk_mem_zipIdx_iff_getElem?.2 hi
      have hlt := List.snd_lt_of_mem_zipIdx hidx
      have := hb (x, i) hidx hxf hxk hq
      simp only at this hlt; omega
    · intro x hx hxk hq
      obtain ⟨hmem, hxf⟩ := mem_of_mem_keepFitting hx
      obtain ⟨i, hi⟩ := List.mem_iff_getElem?.1 hmem
      have := ha (x, before.length + 1 + i) (List.mk_add_mem_zipIdx_iff_getElem?.2 hi) hxf hxk hq
      simp only at this; omega

/-- one range comes to the same in both -/
theorem placed_eq_settledAt (len : Nat) (before after : List Range) (r : Range) :
    (number (keepFitting len [] before).length (keepFitting len (hiddenIn len before) [r])).flatMap
        (placed (keepFitting len [] (before ++ r :: after))) =
      settledAt (before ++ r :: after) len before.length r := by
  simp only [keepFitting, settledAt, List.take_left, repeatsHide_iff]
  split_ifs with hf hk hs
  · rfl
  · simp [number, placed, isStyled_iff, hk]
  · have hne : ∀ x ∈ keepFitting len [] before ++ r :: keepFitting len (hiddenIn len before) after,
        x.start < x.stop := by
      rw [← keepFitting_styled hf hk]
      exact fun x hx => (fits_iff.1 (mem_of_mem_keepFitting hx).2).1
    obtain ⟨es, hes, hruns⟩ := lookup_piecesOf hne hk
    have hwon := (runs_wonRuns (before ++ r :: after) len before.length r).unique
      (hruns.congr fun q => wins_iff hf hk q)
    simp only [number, List.flatMap_cons, List.flatMap_nil, List.append_nil, placed, keepFitting_styled hf hk,
      isStyled_iff.2 hk, if_true, hes, Option.getD_some, hwon]
  · rfl

end Agree

theorem hiddenIn_append (len : Nat) (a b : List Range) : hiddenIn len (a ++ b) = hiddenIn len a ++ hiddenIn len b := by
  simp [hiddenIn]

/-- the ranges from any place on come to the same in both -/
theorem placed_suffix (len : Nat) (before rest : List Range) :
    (number (keepFitting len [] before).length (keepFitting len (hiddenIn len before) rest)).flatMap
        (placed (keepFitting len [] (before ++ rest))) =
      (rest.zipIdx before.length).flatMap fun x => settledAt (before ++ rest) len x.2 x.1 := by
  induction rest generalizing before with
  | nil => rfl
  | cons r rest ih =>
    have hone := placed_eq_settledAt len before rest r
    have hrest := ih (before ++ [r])
    have hkept : keepFitting len (hiddenIn len before) (r :: rest) =
        keepFitting len (hiddenIn len before) [r] ++ keepFitting len (hiddenIn len (before ++ [r])) rest := by
      rw [hiddenIn_append]
      exact (keepFitting_append len _ [r] rest).trans
        (congrArg _ (keepFitting_congr (fun e => by rw [List.mem_append, List.mem_append, or_comm]) rest))
    have hlen : (keepFitting len [] (before ++ [r])).length =
        (keepFitting len [] before).length + (keepFitting len (hiddenIn len before) [r]).length := by
      rw [keepFitting_append, List.append_nil, List.length_append]
    rw [List.append_assoc, List.singleton_append, List.length_append, List.length_singleton, hlen] at hrest
    rw [List.zipIdx_cons, List.flatMap_cons, ← hrest, ← hone, hkept, number_append, List.flatMap_append]

theorem resolve_eq_pointwise (ranges : List Range) (len : Nat) : resolve ranges len = pointwise ranges len := by
  simpa [resolve_eq, pointwise, hiddenIn, keepFitting] using placed_suffix len [] ranges

/-! ## What comes out -/

section Out

variable {ranges : List Range} {len i j : Nat} {r s x y : Range}

/-- a range comes to itself if it is a hide, and to pieces of the bytes it gets otherwise -/
theorem mem_settledAt (h : x ∈ settledAt ranges len i r) :
    r.fits len = true ∧
      (r.kind = .hide ∧ x = r ∧ repeatsHide (ranges.take i) len r = false ∨
        r.kind ≠ .hide ∧ ∃ e ∈ wonRuns ranges len i r, x = r.on e) := by
  unfold settledAt at h
  split_ifs at h with hf hk hs
  · simp at h
  · exact ⟨hf, Or.inl ⟨hk, by simpa using h, by simpa using hs⟩⟩
  · obtain ⟨e, he, rfl⟩ := List.mem_map.1 h
    exact ⟨hf, Or.inr ⟨hk, e, he, rfl⟩⟩
  · simp at h

theorem kind_of_mem_settledAt (h : x ∈ settledAt ranges len i r) :
    x.start < x.stop ∧ x.kind = r.kind ∧ x.level? = r.level? := by
  obtain ⟨hf, ⟨-, rfl, -⟩ | ⟨-, e, he, rfl⟩⟩ := mem_settledAt h
  · exact ⟨(fits_iff.1 hf).1, rfl, rfl⟩
  · exact ⟨(runs_wonRuns ranges len i r).nonempty e he, rfl, rfl⟩

/-- a styled piece has only bytes that its range gets -/
theorem wins_of_mem_settledAt (h : x ∈ settledAt ranges len i r) (hk : r.kind ≠ .hide) {q : Nat}
    (hq : x.extent.Has q) : Wins ranges len i r q := by
  obtain ⟨-, ⟨hk', -⟩ | ⟨-, e, he, rfl⟩⟩ := mem_settledAt h
  · exact absurd hk' hk
  · exact ((runs_wonRuns ranges len i r).has q).2 ⟨e, he, hq⟩

theorem mem_resolve : x ∈ resolve ranges len ↔ ∃ y ∈ ranges.zipIdx, x ∈ settledAt ranges len y.2 y.1 := by
  rw [resolve_eq_pointwise, pointwise, List.mem_flatMap]

/-- the ranges end where one begins, or the other way round -/
def Range.Apart (a b : Range) : Prop := a.stop ≤ b.start ∨ b.stop ≤ a.start

theorem apart_of_not_both (hx : x.start < x.stop) (hy : y.start < y.stop)
    (h : ∀ q, x.extent.Has q → ¬ y.extent.Has q) : x.Apart y := by
  have := h (max x.start y.start)
  simp only [Extent.Has, Range.extent] at this
  unfold Range.Apart
  omega

/-- two ranges of which one is styled come to pieces that share no byte -/
theorem settledAt_apart (hr : (r, i) ∈ ranges.zipIdx) (hs : (s, j) ∈ ranges.zipIdx) (hij : i ≠ j)
    (hx : x ∈ settledAt ranges len i r) (hy : y ∈ settledAt ranges len j s)
    (hk : x.kind ≠ .hide ∨ y.kind ≠ .hide) : x.Apart y := by
  obtain ⟨hxne, hxk, -⟩ := kind_of_mem_settledAt hx
  obtain ⟨hyne, hyk, -⟩ := kind_of_mem_settledAt hy
  refine apart_of_not_both hxne hyne ?_
  intro q hxq hyq
  rw [hxk, hyk] at hk
  by_cases hrk : r.kind = .hide
  · obtain ⟨hrf, ⟨-, rfl, -⟩ | ⟨hrk', -⟩⟩ := mem_settledAt hx
    · have hw := wins_of_mem_settledAt hy (hk.resolve_left (not_not.2 hrk)) hyq
      exact hw.2.1 x (List.fst_mem_of_mem_zipIdx hr) hrf hrk hxq
    · exact hrk' hrk
  have hwr := wins_of_mem_settledAt hx hrk hxq
  by_cases hsk : s.kind = .hide
  · obtain ⟨hsf, ⟨-, rfl, -⟩ | ⟨hsk', -⟩⟩ := mem_settledAt hy
    · exact hwr.2.1 y (List.fst_mem_of_mem_zipIdx hs) hsf hsk hyq
    · exact hsk' hsk
  have hws := wins_of_mem_settledAt hy hsk hyq
  have h1 := hwr.2.2 _ hs (mem_settledAt hy).1 hsk hws.1
  have h2 := hws.2.2 _ hr (mem_settledAt hx).1 hrk hwr.1
  simp only at h1 h2
  omega

theorem zipIdx_sorted (l : List Range) : l.zipIdx.Pairwise fun a b => a.2 < b.2 := by
  rw [← List.pairwise_map (f := Prod.snd) (R := (· < ·)), List.zipIdx_map_snd]
  exact List.pairwise_lt_range'

/-- **No styled range shares a byte with another range.** -/
theorem resolve_disjoint (ranges : List Range) (len : Nat) :
    (resolve ranges len).Pairwise fun a b => a.kind ≠ .hide ∨ b.kind ≠ .hide → a.Apart b := by
  rw [resolve_eq_pointwise, pointwise, List.pairwise_flatMap]
  refine ⟨fun ⟨r, i⟩ _ => ?_, (zipIdx_sorted ranges).imp_of_mem fun ha hb hlt x hx y hy hk =>
    settledAt_apart ha hb (Nat.ne_of_lt hlt) hx hy hk⟩
  unfold settledAt
  split_ifs
  · exact List.Pairwise.nil
  · exact List.pairwise_singleton _ _
  · refine List.pairwise_map.2 ((runs_wonRuns ranges len i r).apart.imp fun hab _ => Or.inl ?_)
    exact hab.le
  · exact List.Pairwise.nil

/-- a hide that fits stays, or one with the same bytes does -/
theorem exists_hide_mem_resolve (hr : r ∈ ranges) (hf : r.fits len = true) (hk : r.kind = .hide) :
    ∃ x ∈ resolve ranges len, x.kind = .hide ∧ x.extent = r.extent := by
  obtain hseen | ⟨x, hx, hxk, hxe⟩ := hide_mem_keepFitting [] hr hf hk
  · simp at hseen
  · obtain ⟨i, hi⟩ := exists_mem_number (n := 0) hx
    have hplaced : placed (keepFitting len [] ranges) (i, x) = [x] := if_neg (by simp [isStyled_iff, hxk])
    refine ⟨x, ?_, hxk, hxe⟩
    rw [resolve_eq]
    exact List.mem_flatMap.2 ⟨(i, x), hi, hplaced ▸ List.mem_singleton.2 rfl⟩

/-- **No hide comes twice.** -/
theorem resolve_hides_differ (ranges : List Range) (len : Nat) :
    (resolve ranges len).Pairwise fun a b => a.kind = .hide → b.kind = .hide → a.extent ≠ b.extent := by
  rw [resolve_eq_pointwise, pointwise, List.pairwise_flatMap]
  refine ⟨fun ⟨r, i⟩ _ => ?_, (zipIdx_sorted ranges).imp_of_mem fun {a b} ha hb hlt x hx y hy hxk hyk he => ?_⟩
  · unfold settledAt
    split_ifs with hf hk
    · exact List.Pairwise.nil
    · exact List.pairwise_singleton _ _
    · exact List.pairwise_map.2 (List.pairwise_of_forall fun _ _ h => absurd h hk)
    · exact List.Pairwise.nil
  · rw [(kind_of_mem_settledAt hx).2.1] at hxk
    rw [(kind_of_mem_settledAt hy).2.1] at hyk
    obtain ⟨hxf, ⟨-, rfl, -⟩ | ⟨hk, -⟩⟩ := mem_settledAt hx
    · obtain ⟨-, ⟨-, rfl, hrep⟩ | ⟨hk, -⟩⟩ := mem_settledAt hy
      · refine absurd (repeatsHide_iff.2 (mem_hiddenIn.2 ⟨a.1, ?_, hxf, hxk, he⟩)) (by simpa using hrep)
        refine List.mem_of_getElem? (i := a.2) ?_
        rw [List.getElem?_take_of_lt hlt, List.mem_zipIdx_iff_getElem?.1 ha]
      · exact hk hyk
    · exact hk hxk

/-- between a byte that a range gets and one of its bytes that it does not get, another range begins or ends -/
theorem exists_other_holder {p q : Nat} (hq : Wins ranges len i r q) (hp : r.extent.Has p)
    (hn : ¬ Wins ranges len i r p) : ∃ t ∈ ranges, t.fits len = true ∧ t.extent.Has p ∧ ¬ t.extent.Has q := by
  by_contra hnone
  push Not at hnone
  refine hn ⟨hp, fun h hh hf hk hhp => hq.2.1 h hh hf hk (hnone h hh hf hhp), ?_⟩
  intro x hx hf hk hxp
  exact hq.2.2 x hx hf hk (hnone x.1 (List.fst_mem_of_mem_zipIdx hx) hf hxp)

/-- **Pieces end only where ranges end.** What holds of the ends of all ranges that fit holds of the ends of all
pieces. -/
theorem resolve_ends {E : Nat → Prop} (hE : ∀ r ∈ ranges, r.fits len = true → E r.start ∧ E r.stop)
    (hx : x ∈ resolve ranges len) : E x.start ∧ E x.stop := by
  obtain ⟨⟨r, i⟩, hr, hx⟩ := mem_resolve.1 hx
  have hmem := List.fst_mem_of_mem_zipIdx hr
  obtain ⟨hf, ⟨-, rfl, -⟩ | ⟨hk, e, he, rfl⟩⟩ := mem_settledAt hx
  · exact hE x hmem hf
  have hruns := runs_wonRuns ranges len i r
  have hne := hruns.nonempty e he
  have hfirst := hruns.start_sat he
  have hlast := hruns.last_sat he
  obtain ⟨hf1, hf2⟩ := hfirst.1
  obtain ⟨hl1, hl2⟩ := hlast.1
  simp only [Range.extent] at hf1 hf2 hl1 hl2
  constructor
  · by_cases hs : e.start = r.start
    · change E e.start
      rw [hs]
      exact (hE r hmem hf).1
    obtain ⟨t, ht, htf, ⟨ht1, ht2⟩, htn⟩ := exists_other_holder hfirst (p := e.start - 1)
      ⟨by simp only [Range.extent]; omega, by simp only [Range.extent]; omega⟩ (hruns.not_before he (by omega))
    simp only [Extent.Has, Range.extent] at ht1 ht2 htn
    have hend : e.start = t.stop := by omega
    change E e.start
    rw [hend]
    exact (hE t ht htf).2
  · by_cases hs : e.stop = r.stop
    · change E e.stop
      rw [hs]
      exact (hE r hmem hf).2
    obtain ⟨t, ht, htf, ⟨ht1, ht2⟩, htn⟩ := exists_other_holder hlast (p := e.stop)
      ⟨by simp only [Range.extent]; omega, by simp only [Range.extent]; omega⟩ (hruns.not_stop he)
    simp only [Extent.Has, Range.extent] at ht1 ht2 htn
    have hend : e.stop = t.start := by omega
    change E e.stop
    rw [hend]
    exact (hE t ht htf).1

/-- a piece has the kind and level of a range -/
theorem kind_of_mem_resolve (hx : x ∈ resolve ranges len) :
    x.start < x.stop ∧ ∃ r ∈ ranges, x.kind = r.kind ∧ x.level? = r.level? ∧ (x.kind = .hide → x = r) := by
  obtain ⟨⟨r, i⟩, hr, hx⟩ := mem_resolve.1 hx
  obtain ⟨hne, hk, hl⟩ := kind_of_mem_settledAt hx
  refine ⟨hne, r, List.fst_mem_of_mem_zipIdx hr, hk, hl, ?_⟩
  intro hxk
  obtain ⟨-, ⟨-, rfl, -⟩ | ⟨hrk, -⟩⟩ := mem_settledAt hx
  · rfl
  · exact absurd (hk.symm.trans hxk) hrk

/-- what comes out has its bytes from a range, and is that range if it is a hide -/
theorem exists_source_of_mem_resolve (hx : x ∈ resolve ranges len) :
    ∃ r ∈ ranges, (∀ q, x.extent.Has q → r.extent.Has q) ∧ (x.kind = .hide ∨ r.kind = .hide → x = r) := by
  obtain ⟨⟨r, i⟩, hr, hx⟩ := mem_resolve.1 hx
  have hmem := List.fst_mem_of_mem_zipIdx hr
  obtain ⟨-, ⟨-, rfl, -⟩ | ⟨hk, -⟩⟩ := mem_settledAt hx
  · exact ⟨x, hmem, fun q hq => hq, fun _ => rfl⟩
  · refine ⟨r, hmem, fun q hq => (wins_of_mem_settledAt hx hk hq).1, ?_⟩
    rintro (hxk | hrk)
    · exact absurd ((kind_of_mem_settledAt hx).2.1.symm.trans hxk) hk
    · exact absurd hrk hk

/-- some range gets each byte that a styled range holds and no hide does: the first of its holders by length -/
theorem exists_wins {q : Nat} (hr : r ∈ ranges) (hf : r.fits len = true) (hk : r.kind ≠ .hide) (hq : r.extent.Has q)
    (hh : ∀ h ∈ ranges, h.fits len = true → h.kind = .hide → ¬ h.extent.Has q) :
    ∃ x ∈ ranges.zipIdx, x.1.fits len = true ∧ x.1.kind ≠ .hide ∧ Wins ranges len x.2 x.1 q := by
  set holders := (number 0 ranges).filter fun x => x.2.fits len ∧ x.2.kind ≠ .hide ∧ x.2.extent.Has q with hhold
  have hmem : ∀ x, x ∈ sortByLen holders ↔
      (x.2, x.1) ∈ ranges.zipIdx ∧ x.2.fits len = true ∧ x.2.kind ≠ .hide ∧ x.2.extent.Has q := by
    rintro ⟨j, s⟩
    rw [(sortByLen_perm holders).mem_iff, hhold, List.mem_filter, number_eq]
    simp
  have hsorted : (sortByLen holders).Pairwise Before := sortByLen_sorted ((number_sorted 0 ranges).filter _)
  cases hfirst : sortByLen holders with
  | nil =>
    obtain ⟨i, hi⟩ := List.mem_iff_getElem?.1 hr
    have := (hmem (i, r)).2 ⟨List.mk_mem_zipIdx_iff_getElem?.2 hi, hf, hk, hq⟩
    simp [hfirst] at this
  | cons x rest =>
    rw [hfirst] at hsorted hmem
    obtain ⟨hx, hxf, hxk, hxq⟩ := (hmem x).1 List.mem_cons_self
    refine ⟨(x.2, x.1), hx, hxf, hxk, hxq, hh, ?_⟩
    intro y hy hyf hyk hyq
    rcases List.mem_cons.1 ((hmem (y.2, y.1)).2 ⟨hy, hyf, hyk, hyq⟩) with rfl | hrest
    · exact Or.inr ⟨rfl, le_rfl⟩
    · rcases (List.pairwise_cons.1 hsorted).1 _ hrest with hlt | ⟨heq, hlt⟩
      · exact Or.inl hlt
      · exact Or.inr ⟨heq, hlt.le⟩

theorem countP_eq_one {α : Type} {p : α → Bool} {l : List α} (hex : ∃ a ∈ l, p a = true)
    (hdiff : l.Pairwise fun a b => p a = true → p b = false) : l.countP p = 1 := by
  rw [List.countP_eq_length_filter]
  have hpair := (hdiff.filter p)
  have hall : ∀ a ∈ l.filter p, p a = true := fun a ha => (List.mem_filter.1 ha).2
  obtain ⟨a, ha, hpa⟩ := hex
  have hmem := List.mem_filter.2 ⟨ha, hpa⟩
  match hl : l.filter p with
  | [] => simp [hl] at hmem
  | [_] => rfl
  | b :: c :: rest =>
    rw [hl] at hpair hall
    have hbc := (List.pairwise_cons.1 hpair).1 c List.mem_cons_self (hall b List.mem_cons_self)
    simp [hall c (by simp)] at hbc

/-- **A byte that a styled range holds and no hide lies in exactly one styled piece.** -/
theorem countP_resolve {q : Nat} (hr : r ∈ ranges) (hf : r.fits len = true) (hk : r.kind ≠ .hide)
    (hq : r.extent.Has q) (hh : ∀ h ∈ ranges, h.fits len = true → h.kind = .hide → ¬ h.extent.Has q) :
    (resolve ranges len).countP (fun x => x.extent.Has q) = 1 := by
  refine countP_eq_one ?_ ((resolve_disjoint ranges len).imp_of_mem fun {a b} ha hb hab haq => ?_)
  · obtain ⟨⟨s, i⟩, hs, hsf, hsk, hw⟩ := exists_wins hr hf hk hq hh
    obtain ⟨e, he, heq⟩ := ((runs_wonRuns ranges len i s).has q).1 hw
    refine ⟨s.on e, mem_resolve.2 ⟨(s, i), hs, ?_⟩, decide_eq_true heq⟩
    simp only [settledAt, hsf, hsk, if_true, if_false]
    exact List.mem_map_of_mem he
  · -- a hide in the output would hold the byte
    have hstyled : a.kind ≠ .hide := by
      intro hak
      obtain ⟨⟨s, i⟩, hs, hx⟩ := mem_resolve.1 ha
      obtain ⟨hsf, ⟨hsk, rfl, -⟩ | ⟨hsk, -⟩⟩ := mem_settledAt hx
      · exact hh a (List.fst_mem_of_mem_zipIdx hs) hsf hsk (by simpa using haq)
      · exact hsk ((kind_of_mem_settledAt hx).2.1.symm.trans hak)
    have hap := hab (Or.inl hstyled)
    have ha' : a.extent.Has q := by simpa using haq
    simp only [decide_eq_false_iff_not]
    simp only [Extent.Has, Range.extent] at ha' ⊢
    unfold Range.Apart at hap
    omega

/-- **Settling overlaps is the pointwise rule.** A byte that a styled range holds and no hide lies in exactly one
piece. -/
theorem resolve_pointwise (ranges : List Range) (len : Nat) :
    resolve ranges len = pointwise ranges len ∧
      (∀ r i, Runs (Wins ranges len i r) (wonRuns ranges len i r)) ∧
      ∀ q, (∃ r ∈ ranges, r.fits len = true ∧ r.kind ≠ .hide ∧ r.extent.Has q) →
        (∀ h ∈ ranges, h.fits len = true → h.kind = .hide → ¬ h.extent.Has q) →
        (resolve ranges len).countP (fun x => x.extent.Has q) = 1 := by
  refine ⟨resolve_eq_pointwise ranges len, fun r i => runs_wonRuns ranges len i r, ?_⟩
  rintro q ⟨r, hr, hf, hk, hq⟩ hh
  exact countP_resolve hr hf hk hq hh

theorem resolve_pointwise_split :
    (∃ r ∈ [Range.styled 0 9 .bold, .styled 3 5 .code], r.fits 9 = true ∧ r.kind ≠ .hide ∧ r.extent.Has 4) ∧
      (∀ h ∈ [Range.styled 0 9 .bold, .styled 3 5 .code], h.fits 9 = true → h.kind = .hide → ¬ h.extent.Has 4) ∧
      (resolve [.styled 0 9 .bold, .styled 3 5 .code] 9).countP (fun x => x.extent.Has 4) = 1 :=
  ⟨by decide, by decide, (resolve_pointwise _ 9).2.2 4 (by decide) (by decide)⟩

end Out

/-! ## Ranges that come to one range each -/

section Differ

variable {ranges : List Range} {len i : Nat} {r : Range} {e : Extent}

/-- ranges that come to one range each -/
theorem resolve_eq_map_of_settledAt {f : Range → Range}
    (h : ∀ i r, ranges[i]? = some r → settledAt ranges len i r = [f r]) : resolve ranges len = ranges.map f := by
  have hone : ∀ x ∈ ranges.zipIdx, settledAt ranges len x.2 x.1 = [f x.1] := by
    rintro ⟨r, i⟩ hx
    exact h i r (List.mk_mem_zipIdx_iff_getElem?.1 hx)
  calc resolve ranges len = ranges.zipIdx.flatMap fun x => settledAt ranges len x.2 x.1 :=
        resolve_eq_pointwise ranges len
    _ = ranges.zipIdx.flatMap fun x => [f x.1] := List.flatMap_congr hone
    _ = (ranges.zipIdx.map Prod.fst).map f := by rw [← List.map_eq_flatMap, List.map_map]; rfl
    _ = ranges.map f := by rw [List.zipIdx_map_fst]

/-- what holds of ranges in order holds of a range and those before it -/
theorem pairwise_take {R : Range → Range → Prop} (h : ranges.Pairwise R) (hr : ranges[i]? = some r) :
    ∀ x ∈ ranges.take i, R x r := by
  obtain ⟨hi, rfl⟩ := List.getElem?_eq_some_iff.1 hr
  rw [← List.take_append_drop i ranges, List.drop_eq_getElem_cons hi] at h
  intro x hx
  exact (List.pairwise_append.1 h).2.2 x hx _ List.mem_cons_self

/-- a hide that no earlier one repeats stays as it is -/
theorem settledAt_hide (hfits : r.fits len = true) (hk : r.kind = .hide)
    (hnew : ∀ h ∈ ranges.take i, h.kind = .hide → h.extent ≠ r.extent) : settledAt ranges len i r = [r] := by
  have hnone : repeatsHide (ranges.take i) len r = false := by
    rw [Bool.eq_false_iff, Ne, repeatsHide_iff, mem_hiddenIn]
    rintro ⟨h, hh, -, hkind, he⟩
    exact hnew h hh hkind he
  rw [settledAt, if_pos hfits, if_pos hk, hnone]
  rfl

/-- a styled range that gets the bytes of one extent comes to it -/
theorem settledAt_styled (hfits : r.fits len = true) (hk : r.kind ≠ .hide) (he : e.start < e.stop)
    (hwins : ∀ q, Wins ranges len i r q ↔ e.Has q) : settledAt ranges len i r = [r.on e] := by
  have hruns : wonRuns ranges len i r = [e] :=
    (runs_wonRuns ranges len i r).unique ((Runs.single he).congr fun q => (hwins q).symm)
  rw [settledAt, if_pos hfits, if_neg hk, hruns]
  rfl

/-- two hides differ in their bytes, and two styled ranges in their lengths -/
def Differ (a b : Range) : Prop :=
  (a.kind = .hide → b.kind = .hide → a.extent ≠ b.extent) ∧ (a.kind ≠ .hide → b.kind ≠ .hide → a.len ≠ b.len)

/-- of ranges that differ, the shortest gets a byte that no hide holds -/
theorem wins_of_differ (hfits : ∀ r ∈ ranges, r.fits len = true) (hdiffer : ranges.Pairwise Differ)
    (hr : ranges[i]? = some r) (hk : r.kind ≠ .hide) (q : Nat) : Wins ranges len i r q ↔
      r.extent.Has q ∧ ∀ x ∈ ranges, x.extent.Has q → x.kind ≠ .hide ∧ r.len ≤ x.len := by
  refine and_congr_right fun _ => ?_
  constructor
  · rintro ⟨hfree, hshort⟩ x hx hq
    have hkind : x.kind ≠ .hide := fun h => hfree x hx (hfits x hx) h hq
    obtain ⟨j, hj⟩ := List.mem_iff_getElem?.1 hx
    have := hshort (x, j) (List.mk_mem_zipIdx_iff_getElem?.2 hj) (hfits x hx) hkind hq
    exact ⟨hkind, by simp only at this; omega⟩
  · intro h
    refine ⟨fun x hx _ hkind hq => (h x hx hq).1 hkind, ?_⟩
    rintro ⟨x, j⟩ hx - hkind hq
    have hle := (h x (List.fst_mem_of_mem_zipIdx hx) hq).2
    rcases hle.lt_or_eq with hlt | heq
    · exact Or.inl hlt
    · refine Or.inr ⟨heq, ?_⟩
      by_contra hij
      obtain ⟨hi, rfl⟩ := List.getElem?_eq_some_iff.1 hr
      obtain ⟨hj, rfl⟩ := List.getElem?_eq_some_iff.1 (List.mk_mem_zipIdx_iff_getElem?.1 hx)
      exact (List.pairwise_iff_getElem.1 hdiffer j i hj hi (Nat.lt_of_not_le hij)).2 hkind hk heq.symm

/-- ranges that differ come to one range each, if each styled one gets the bytes of one extent -/
theorem resolve_eq_map {f : Range → Range} (hfits : ∀ r ∈ ranges, r.fits len = true)
    (hdiffer : ranges.Pairwise Differ) (hhide : ∀ r ∈ ranges, r.kind = .hide → f r = r)
    (hstyled : ∀ r ∈ ranges, r.kind ≠ .hide → ∃ e : Extent, e.start < e.stop ∧ f r = r.on e ∧
      ∀ q, e.Has q ↔ r.extent.Has q ∧ ∀ x ∈ ranges, x.extent.Has q → x.kind ≠ .hide ∧ r.len ≤ x.len) :
    resolve ranges len = ranges.map f := by
  refine resolve_eq_map_of_settledAt fun i r hget => ?_
  have hr : r ∈ ranges := List.mem_of_getElem? hget
  by_cases hk : r.kind = .hide
  · rw [hhide r hr hk]
    refine settledAt_hide (hfits r hr) hk ?_
    intro h hh hkind
    exact ((pairwise_take hdiffer hget) h hh).1 hkind hk
  · obtain ⟨e, he, hf, hwins⟩ := hstyled r hr hk
    rw [hf]
    refine settledAt_styled (hfits r hr) hk he ?_
    intro q
    rw [wins_of_differ hfits hdiffer hget hk, hwins]

end Differ

end MarkVeil.Decoration
