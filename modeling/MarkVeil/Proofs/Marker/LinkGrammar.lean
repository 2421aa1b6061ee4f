/-
The grammar of links and images.

`Items` says what a label is made of, characters other than a closing bracket and whole images, and `CloseAt` what
stands behind one. A label that holds an exclamation mark may be read in more than one way; `Prefers` is the reading
that takes an image at each one wherever that still leads to a close. There is at most one (`Prefers.unique`), and if
there is any reading there is this one (`exists_prefers`).
Main results:
- `link?_eq_some`, `image?_eq_some`: a link is read exactly where one stands, with the preferred label, and an image
  exactly where one stands.
- `link?_complete`: a label without doubtful exclamation marks (`Label`) is read as a whole.
-/
import MarkVeil.Marker.Link
import MarkVeil.Proofs.Text.Search

namespace MarkVeil.Marker.Link

open MarkVeil.Text

/-! ## Targets and images -/

/-- a target in parentheses: not empty, and without a closing parenthesis -/
def IsTarget (target : List Char) : Prop := target ≠ [] ∧ ')' ∉ target

/-- a target in parentheses, and text after it, stand behind a label -/
def CloseAt (s rest : List Char) : Prop := ∃ target, IsTarget target ∧ s = ']' :: '(' :: (target ++ ')' :: rest)

/-- an image as a label may hold it: its target may be empty -/
def IsImage (i : List Char) : Prop :=
  ∃ alt src, ']' ∉ alt ∧ ')' ∉ src ∧ i = '!' :: '[' :: (alt ++ ']' :: '(' :: (src ++ [')']))

variable {s t a b u i j l rest target : List Char} {c : Char} {fuel : Nat} {need blank : Bool} {p : Parts}

theorem dropWhile_stop (ha : c ∉ a) (b : List Char) :
    (a ++ c :: b).dropWhile (· != c) = c :: b := by
  induction a with
  | nil => simp
  | cons d a ih =>
    have hd : d ≠ c := fun h => ha (h ▸ List.mem_cons_self)
    rw [List.cons_append, List.dropWhile_cons_of_pos (by simpa using hd)]
    exact ih fun h => ha (List.mem_cons_of_mem _ h)

/-- a text is cut at the first of a character in one way only -/
theorem cut_unique (ha : c ∉ a) (hb : c ∉ b) (h : a ++ c :: s = b ++ c :: t) : a = b := by
  have hdrop := congrArg (List.dropWhile (· != c)) h
  rw [dropWhile_stop ha, dropWhile_stop hb] at hdrop
  rw [hdrop] at h
  exact List.append_cancel_right h

/-- a text is cut at the first of a character that it has -/
theorem takeWhile_cut (h : s.dropWhile (· != c) = t) (ht : t ≠ []) :
    ∃ a b, s = a ++ c :: b ∧ c ∉ a ∧ t = c :: b := by
  obtain ⟨d, b, rfl⟩ := List.exists_cons_of_ne_nil ht
  have hd : d = c := by
    have := List.head_dropWhile_not (· != c) (l := s) (by rw [h]; simp)
    simpa [h] using this
  subst hd
  refine ⟨s.takeWhile (· != d), b, by rw [← h, List.takeWhile_append_dropWhile], ?_, rfl⟩
  intro hmem
  simpa using List.mem_takeWhile_imp hmem

theorem target?_complete (ht : ')' ∉ target) (hne : target ≠ [] ∨ blank = true) (rest : List Char) :
    target? blank (']' :: '(' :: (target ++ ')' :: rest)) = some rest := by
  simp only [target?, dropWhile_stop ht]
  refine if_neg ?_
  intro h
  rcases hne with hne | hblank
  · obtain ⟨c, t, rfl⟩ := List.exists_cons_of_ne_nil hne
    obtain rfl : c = ')' := by simpa using h.2
    exact ht List.mem_cons_self
  · simp [hblank] at h

theorem target?_eq_some : target? blank s = some rest ↔
    ∃ target, ')' ∉ target ∧ (target ≠ [] ∨ blank = true) ∧ s = ']' :: '(' :: (target ++ ')' :: rest) := by
  constructor
  · intro h
    unfold target? at h
    split at h
    next s =>
      split at h
      next c rest' hdrop =>
        obtain ⟨target, b, rfl, ht, hb⟩ := takeWhile_cut hdrop (List.cons_ne_nil _ _)
        split_ifs at h with hempty
        obtain rfl := Option.some.inj h
        obtain ⟨rfl, rfl⟩ := List.cons.inj hb
        refine ⟨target, ht, ?_, rfl⟩
        by_contra hne
        rw [not_or, not_not] at hne
        exact hempty ⟨by simpa using hne.2, by rw [hne.1]; rfl⟩
      next => simp at h
    next => simp at h
  · rintro ⟨target, ht, hne, rfl⟩
    exact target?_complete ht hne rest

theorem target?_iff_closeAt : target? false s = some rest ↔ CloseAt s rest := by
  rw [target?_eq_some]
  constructor
  · rintro ⟨target, ht, hne, rfl⟩
    exact ⟨target, ⟨hne.resolve_right Bool.false_ne_true, ht⟩, rfl⟩
  · rintro ⟨target, ht, rfl⟩
    exact ⟨target, ht.2, Or.inl ht.1, rfl⟩

theorem inner?_eq_some : inner? s = some rest ↔ ∃ i, IsImage i ∧ s = i ++ rest := by
  constructor
  · intro h
    unfold inner? at h
    split at h
    next s =>
      obtain ⟨src, hsrc, -, hclose⟩ := target?_eq_some.1 h
      obtain ⟨alt, b, rfl, halt, hb⟩ := takeWhile_cut hclose (List.cons_ne_nil _ _)
      obtain ⟨-, rfl⟩ := List.cons.inj hb
      exact ⟨_, ⟨alt, src, halt, hsrc, rfl⟩, by simp⟩
    next => simp at h
  · rintro ⟨i, ⟨alt, src, halt, hsrc, rfl⟩, rfl⟩
    simp only [List.cons_append, List.append_assoc, List.nil_append, inner?, dropWhile_stop halt]
    exact target?_complete hsrc (Or.inr rfl) rest

theorem IsImage.ne_nil (hi : IsImage i) : i ≠ [] := by
  obtain ⟨alt, src, -, -, rfl⟩ := hi
  exact List.cons_ne_nil _ _

/-! ## Labels -/

/-- what a label is made of: characters other than a closing bracket, and images -/
inductive Items : List Char → Prop
  | nil : Items []
  | char {c : Char} {l : List Char} (hc : c ≠ ']') (h : Items l) : Items (c :: l)
  | image {i l : List Char} (hi : IsImage i) (h : Items l) : Items (i ++ l)

/-- a text leads to a close: items stand at its front, and behind them a target -/
def Leads (s : List Char) : Prop := ∃ l t rest, s = l ++ t ∧ Items l ∧ CloseAt t rest

/-- the preferred reading of a label in front of a text: an image is taken wherever that leads to a close -/
inductive Prefers : (label rest : List Char) → Prop
  | close {t rest : List Char} (h : CloseAt t rest) : Prefers [] t
  | image {i l t : List Char} (hi : IsImage i) (h : Prefers l t) : Prefers (i ++ l) t
  | char {c : Char} {l t : List Char} (hc : c ≠ ']')
      (hno : ∀ i u, IsImage i → c :: (l ++ t) = i ++ u → ¬ Leads u) (h : Prefers l t) : Prefers (c :: l) t

theorem Prefers.items (h : Prefers l t) : Items l := by
  induction h with
  | close => exact .nil
  | image hi _ ih => exact .image hi ih
  | char hc _ _ ih => exact .char hc ih

theorem Prefers.closeAt (h : Prefers l t) : ∃ rest, CloseAt t rest := by
  induction h with
  | close h => exact ⟨_, h⟩
  | image _ _ ih => exact ih
  | char _ _ _ ih => exact ih

theorem Prefers.leads (h : Prefers l t) : Leads (l ++ t) := by
  obtain ⟨rest, hrest⟩ := h.closeAt
  exact ⟨l, t, rest, rfl, h.items, hrest⟩

/-- what leads to a close at all has its preferred reading -/
theorem exists_prefers (h : Leads s) : ∃ l t, s = l ++ t ∧ Prefers l t := by
  induction hlen : s.length using Nat.strong_induction_on generalizing s with
  | _ n ih =>
    by_cases himage : ∃ i u, IsImage i ∧ s = i ++ u ∧ Leads u
    · obtain ⟨i, u, hi, rfl, hu⟩ := himage
      have hpos := List.length_pos_iff.2 hi.ne_nil
      obtain ⟨l, t, rfl, hl⟩ := ih u.length (by rw [← hlen, List.length_append]; omega) hu rfl
      exact ⟨i ++ l, t, by rw [List.append_assoc], .image hi hl⟩
    · obtain ⟨l, t, rest, rfl, hl, hclose⟩ := h
      cases hl with
      | nil => exact ⟨[], t, rfl, .close hclose⟩
      | image hi hl =>
        exact absurd ⟨_, _, hi, List.append_assoc _ _ _, _, _, _, rfl, hl, hclose⟩ himage
      | @char c l hc hl =>
        obtain ⟨l', t', heq, hl'⟩ := ih (l ++ t).length (by rw [← hlen]; simp) ⟨l, t, rest, rfl, hl, hclose⟩ rfl
        refine ⟨c :: l', t', by rw [List.cons_append, heq, List.cons_append], .char hc ?_ hl'⟩
        intro i u hi hu hleads
        exact himage ⟨i, u, hi, by rw [List.cons_append, heq, hu], hleads⟩

/-- an image at the front is read on behind exactly if there is one and the rest is read -/
theorem bind_inner?_eq_some {x : List Char × List Char} : (inner? s).bind (label? fuel false) = some x ↔
    ∃ i u, IsImage i ∧ s = i ++ u ∧ label? fuel false u = some x := by
  rw [Option.bind_eq_some_iff]
  constructor
  · rintro ⟨u, hinner, hu⟩
    obtain ⟨i, hi, rfl⟩ := inner?_eq_some.1 hinner
    exact ⟨i, u, hi, rfl, hu⟩
  · rintro ⟨i, u, hi, rfl, hu⟩
    exact ⟨u, inner?_eq_some.2 ⟨i, hi, rfl⟩, hu⟩

/-- what one step of reading a label can do: take an image, take a character if no image leads on, or close -/
theorem label?_succ_eq_some : label? (fuel + 1) need s = some (t, rest) ↔
    (∃ i u, IsImage i ∧ s = i ++ u ∧ label? fuel false u = some (t, rest)) ∨
    (∃ c u, s = c :: u ∧ c ≠ ']' ∧ (∀ i v, IsImage i → s = i ++ v → label? fuel false v = none) ∧
      label? fuel false u = some (t, rest)) ∨
    need = false ∧ t = s ∧ CloseAt s rest := by
  have hnone : (inner? s).bind (label? fuel false) = none ↔
      ∀ i v, IsImage i → s = i ++ v → label? fuel false v = none := by
    rw [Option.bind_eq_none_iff]
    constructor
    · rintro h i v hi rfl
      exact h v (inner?_eq_some.2 ⟨i, hi, rfl⟩)
    · intro h v hinner
      obtain ⟨i, hi, hs⟩ := inner?_eq_some.1 hinner
      exact h i v hi hs
  simp only [label?, Option.or_eq_some_iff, Option.or_eq_none_iff, bind_inner?_eq_some, hnone]
  constructor
  · rintro ((himage | ⟨hno, hone⟩) | ⟨-, hclose⟩)
    · exact Or.inl himage
    · cases s with
      | nil => simp at hone
      | cons c u =>
        simp only at hone
        split_ifs at hone with hc
        exact Or.inr (Or.inl ⟨c, u, rfl, hc, hno, hone⟩)
    · split_ifs at hclose with hneed
      obtain ⟨rest', hrest', heq⟩ := Option.map_eq_some_iff.1 hclose
      obtain ⟨rfl, rfl⟩ := Prod.mk.inj heq
      exact Or.inr (Or.inr ⟨by simpa using hneed, rfl, target?_iff_closeAt.1 hrest'⟩)
  · rintro (himage | ⟨c, u, rfl, hc, hno, hone⟩ | ⟨rfl, rfl, hclose⟩)
    · exact Or.inl (Or.inl himage)
    · exact Or.inl (Or.inr ⟨hno, by simp only [if_neg hc, hone]⟩)
    · -- where a label closes stands a closing bracket, which is neither an image nor a character of a label
      refine Or.inr ⟨?_, by rw [target?_iff_closeAt.2 hclose]; rfl⟩
      obtain ⟨target, -, rfl⟩ := hclose
      exact ⟨hnone.1 rfl, rfl⟩

/-- **What is read of a label is its preferred reading**, and nothing is read exactly if there is none. -/
theorem label?_eq_some (hfuel : s.length < fuel) : label? fuel need s = some (t, rest) ↔
    ∃ l, s = l ++ t ∧ Prefers l t ∧ CloseAt t rest ∧ (need = true → l ≠ []) := by
  induction fuel generalizing need s t rest with
  | zero => simp at hfuel
  | succ fuel ih =>
    have hshort : ∀ i u, IsImage i → s = i ++ u → u.length < fuel := by
      rintro i u hi rfl
      have := List.length_pos_iff.2 hi.ne_nil
      rw [List.length_append] at hfuel
      omega
    rw [label?_succ_eq_some]
    constructor
    · rintro (⟨i, u, hi, rfl, hu⟩ | ⟨c, u, rfl, hc, hno, hu⟩ | ⟨rfl, rfl, hclose⟩)
      · obtain ⟨l, rfl, hl, hrest, -⟩ := (ih (hshort i u hi rfl)).1 hu
        exact ⟨i ++ l, by rw [List.append_assoc], .image hi hl, hrest, fun _ => by simp [hi.ne_nil]⟩
      · obtain ⟨l, rfl, hl, hrest, -⟩ := (ih (by simpa using hfuel)).1 hu
        refine ⟨c :: l, rfl, .char hc ?_ hl, hrest, fun _ => List.cons_ne_nil _ _⟩
        intro i v hi hv hleads
        obtain ⟨l', t', rfl, hl'⟩ := exists_prefers hleads
        obtain ⟨rest', hrest'⟩ := hl'.closeAt
        have hread : label? fuel false (l' ++ t') = some (t', rest') :=
          (ih (hshort i _ hi hv)).2 ⟨l', rfl, hl', hrest', by simp⟩
        rw [hno i _ hi hv] at hread
        exact Option.some_ne_none _ hread.symm
      · exact ⟨[], rfl, .close hclose, hclose, by simp⟩
    · rintro ⟨l, rfl, hl, hrest, hneed⟩
      cases hl with
      | close => exact Or.inr (Or.inr ⟨by simpa using hneed, rfl, hrest⟩)
      | @image i l _ hi hl =>
        have hcut : i ++ l ++ t = i ++ (l ++ t) := List.append_assoc _ _ _
        exact Or.inl ⟨i, l ++ t, hi, hcut, (ih (hshort i _ hi hcut)).2 ⟨l, rfl, hl, hrest, by simp⟩⟩
      | @char c l _ hc hno hl =>
        refine Or.inr (Or.inl ⟨c, l ++ t, rfl, hc, ?_, (ih (by simpa using hfuel)).2 ⟨l, rfl, hl, hrest, by simp⟩⟩)
        intro i v hi hv
        by_contra hsome
        obtain ⟨⟨t', rest'⟩, hsome⟩ := Option.ne_none_iff_exists'.1 hsome
        obtain ⟨l', rfl, hl', -⟩ := (ih (hshort i v hi hv)).1 hsome
        exact hno i _ hi hv hl'.leads

/-- a label has one preferred reading at most -/
theorem Prefers.unique {l' t' : List Char} (h : Prefers l t) (h' : Prefers l' t') (heq : l ++ t = l' ++ t') :
    l = l' ∧ t = t' := by
  obtain ⟨rest, hrest⟩ := h.closeAt
  obtain ⟨rest', hrest'⟩ := h'.closeAt
  have hread : label? ((l ++ t).length + 1) false (l ++ t) = some (t, rest) :=
    (label?_eq_some (Nat.lt_succ_self _)).2 ⟨l, rfl, h, hrest, by simp⟩
  have hread' : label? ((l ++ t).length + 1) false (l ++ t) = some (t', rest') :=
    (label?_eq_some (Nat.lt_succ_self _)).2 ⟨l', heq, h', hrest', by simp⟩
  obtain ⟨rfl, -⟩ := Prod.mk.inj (Option.some.inj (hread.symm.trans hread'))
  exact ⟨List.append_cancel_right heq, rfl⟩

/-- a label that is read in one way only: whole images, and characters that neither open an image nor close the label -/
inductive Label : List Char → Prop
  | nil : Label []
  | char {c : Char} {s : List Char} (hc : c ≠ ']' ∧ c ≠ '!') (h : Label s) : Label (c :: s)
  | image {alt target s : List Char} (ha : ']' ∉ alt) (ht : ')' ∉ target) (h : Label s) :
      Label ('!' :: '[' :: (alt ++ ']' :: '(' :: (target ++ ')' :: s)))

theorem Label.append (ha : Label a) (hb : Label b) : Label (a ++ b) := by
  induction ha with
  | nil => exact hb
  | char hc _ ih => exact .char hc ih
  | image h1 h2 _ ih =>
    have := Label.image h1 h2 ih
    simpa using this

theorem Label.of_chars (h : ∀ c ∈ s, c ≠ ']' ∧ c ≠ '!') : Label s := by
  induction s with
  | nil => exact .nil
  | cons c s ih =>
    obtain ⟨hc, hs⟩ := List.forall_mem_cons.1 h
    exact .char hc (ih hs)

theorem Label.prefers (h : Label l) (hclose : CloseAt t rest) : Prefers l t := by
  induction h with
  | nil => exact .close hclose
  | @char c l hc _ ih =>
    refine .char hc.1 ?_ ih
    rintro i u ⟨alt, src, -, -, rfl⟩ heq
    exact absurd (List.cons.inj heq).1 hc.2
  | @image alt target l ha ht _ ih =>
    have := Prefers.image ⟨alt, target, ha, ht, rfl⟩ ih
    simpa using this

/-! ## Links and images -/

theorem byteLen_close (target b : List Char) :
    byteLen (']' :: '(' :: (target ++ ')' :: b)) = byteLen target + 3 + byteLen b := by
  have h2 : ']'.utf8Size = 1 := rfl
  have h3 : '('.utf8Size = 1 := rfl
  have h4 : ')'.utf8Size = 1 := rfl
  simp only [byteLen_append, byteLen_cons, h2, h3, h4]
  omega

/-- the parts that are read behind an opener, by the bytes of the label and the target -/
theorem parts_eq (opener : Nat) (label target rest : List Char) :
    (⟨⟨0, opener + (byteLen (label ++ ']' :: '(' :: (target ++ ')' :: rest)) - byteLen rest)⟩,
      ⟨opener, opener + (byteLen (label ++ ']' :: '(' :: (target ++ ')' :: rest)) -
        byteLen (']' :: '(' :: (target ++ ')' :: rest)))⟩⟩ : Parts) =
      ⟨⟨0, byteLen label + byteLen target + (opener + 3)⟩, ⟨opener, opener + byteLen label⟩⟩ := by
  simp only [byteLen_append, byteLen_close, Parts.mk.injEq, Extent.mk.injEq, true_and]
  omega

/-- **A link is read exactly where one stands**, with the preferred reading of its label. -/
theorem link?_eq_some : link? s = some p ↔ ∃ label target rest,
    s = '[' :: (label ++ ']' :: '(' :: (target ++ ')' :: rest)) ∧ label ≠ [] ∧
      Prefers label (']' :: '(' :: (target ++ ')' :: rest)) ∧ IsTarget target ∧
      p = ⟨⟨0, byteLen label + byteLen target + 4⟩, ⟨1, 1 + byteLen label⟩⟩ := by
  constructor
  · intro h
    unfold link? at h
    split at h
    next s =>
      obtain ⟨⟨t, rest⟩, hlabel, rfl⟩ := Option.map_eq_some_iff.1 h
      obtain ⟨label, rfl, hl, ⟨target, ht, rfl⟩, hne⟩ := (label?_eq_some (Nat.lt_succ_self _)).1 hlabel
      exact ⟨label, target, rest, rfl, hne rfl, hl, ht, parts_eq 1 label target rest⟩
    next => simp at h
  · rintro ⟨label, target, rest, rfl, hne, hl, ht, rfl⟩
    rw [link?, (label?_eq_some (Nat.lt_succ_self _)).2 ⟨label, rfl, hl, ⟨target, ht, rfl⟩, fun _ => hne⟩,
      Option.map_some]
    exact congrArg some (parts_eq 1 label target rest)

/-- a link is read as soon as its label can be read in any way -/
theorem exists_link? : (∃ p, link? s = some p) ↔ ∃ label target rest,
    s = '[' :: (label ++ ']' :: '(' :: (target ++ ')' :: rest)) ∧ label ≠ [] ∧ Items label ∧ IsTarget target := by
  constructor
  · rintro ⟨p, hp⟩
    obtain ⟨label, target, rest, hs, hne, hl, ht, -⟩ := link?_eq_some.1 hp
    exact ⟨label, target, rest, hs, hne, hl.items, ht⟩
  · rintro ⟨label, target, rest, rfl, hne, hl, ht⟩
    obtain ⟨l, t, heq, hread⟩ := exists_prefers ⟨label, _, rest, rfl, hl, target, ht, rfl⟩
    obtain ⟨rest', target', ht', rfl⟩ := hread.closeAt
    refine ⟨_, link?_eq_some.2 ⟨l, target', rest', by rw [heq], ?_, hread, ht', rfl⟩⟩
    -- a label of at least one item does not begin with a closing bracket, so its preferred reading is not empty
    rintro rfl
    cases hl with
    | nil => exact hne rfl
    | char hc => exact hc (List.cons.inj heq).1
    | image hi =>
      obtain ⟨alt, src, -, -, rfl⟩ := hi
      exact absurd (List.cons.inj heq).1 (by decide)

/-- **An image is read exactly where one stands.** -/
theorem image?_eq_some : image? s = some p ↔ ∃ alt target rest,
    s = '!' :: '[' :: (alt ++ ']' :: '(' :: (target ++ ')' :: rest)) ∧ ']' ∉ alt ∧ IsTarget target ∧
      p = ⟨⟨0, byteLen alt + byteLen target + 5⟩, ⟨2, 2 + byteLen alt⟩⟩ := by
  constructor
  · intro h
    unfold image? at h
    split at h
    next s =>
      obtain ⟨rest, hclose, rfl⟩ := Option.map_eq_some_iff.1 h
      obtain ⟨target, ht, heq⟩ := target?_iff_closeAt.1 hclose
      obtain ⟨alt, b, rfl, ha, hb⟩ := takeWhile_cut heq (List.cons_ne_nil _ _)
      obtain ⟨-, rfl⟩ := List.cons.inj hb
      rw [heq]
      exact ⟨alt, target, rest, rfl, ha, ht, parts_eq 2 alt target rest⟩
    next => simp at h
  · rintro ⟨alt, target, rest, rfl, ha, ht, rfl⟩
    simp only [image?, dropWhile_stop ha, target?_iff_closeAt.2 ⟨target, ht, rfl⟩, Option.map_some]
    exact congrArg some (parts_eq 2 alt target rest)

/-- a label that is read in one way only is read as a whole, whatever follows the link -/
theorem link?_complete {label : List Char} (hl : Label label) (hlne : label ≠ []) (ht : ')' ∉ target)
    (htne : target ≠ []) (rest : List Char) : link? ('[' :: (label ++ ']' :: '(' :: (target ++ ')' :: rest))) =
      some ⟨⟨0, byteLen label + byteLen target + 4⟩, ⟨1, 1 + byteLen label⟩⟩ :=
  link?_eq_some.2 ⟨label, target, rest, rfl, hlne, hl.prefers ⟨target, ⟨htne, ht⟩, rfl⟩, ⟨htne, ht⟩, rfl⟩

theorem image?_complete {alt : List Char} (ha : ']' ∉ alt) (ht : ')' ∉ target) (htne : target ≠ [])
    (rest : List Char) : image? ('!' :: '[' :: (alt ++ ']' :: '(' :: (target ++ ')' :: rest))) =
      some ⟨⟨0, byteLen alt + byteLen target + 5⟩, ⟨2, 2 + byteLen alt⟩⟩ :=
  image?_eq_some.2 ⟨alt, target, rest, rfl, ha, ⟨htne, ht⟩, rfl⟩

end MarkVeil.Marker.Link
