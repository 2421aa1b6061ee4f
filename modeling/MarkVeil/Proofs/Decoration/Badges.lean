/-
Badges: links over an image.

A badge is written `[![alt](source)](target)`. The link's label is the whole image, so the two have eight delimiters
and no two of them share a byte; what the label has besides the image's delimiters and its alternative text is its
source. Main result:
- `badge_exact`: where a badge stands on a line, the searches for links and images find it and its image, and its tokens
  hide the eight delimiters, each once, style the source and a non-empty alternative text, and give nothing else.
-/
import MarkVeil.Proofs.Decoration.Overlap
import MarkVeil.Proofs.Decoration.Turns
import MarkVeil.Proofs.Phrase.Recovery

namespace MarkVeil.Decoration

open MarkVeil.Text
open MarkVeil.Text.Source (around_of_lineAt)
open MarkVeil.Token (Node)
open MarkVeil.Marker.Link (IsTarget Label Parts findLink? findImage?)
open Phrase (bracketed)
open Scan (delimiters)

/-! ## Ranges -/

/-- what a badge gives before overlaps are settled: a link with the whole image as its label, and the image -/
def badgeFound (pos alt src target : Nat) : List Range :=
  bracketed pos 1 (alt + src + 5) target .link ++
    (delimiters (pos + 1) 2 alt src ++ style (.styled (pos + 3) (pos + 3 + alt) .image))

/-- what a badge comes to: of its label the link keeps the source -/
def badgeRanges (pos alt src target : Nat) : List Range :=
  delimiters pos 1 (alt + src + 5) target ++ .styled (pos + alt + 5) (pos + alt + 5 + src) .link ::
    (delimiters (pos + 1) 2 alt src ++ style (.styled (pos + 3) (pos + 3 + alt) .image))

theorem forall_style {P : Range → Prop} {x : Range} : (∀ r ∈ style x, P r) ↔ (x.start < x.stop → P x) := by
  unfold style
  split_ifs with h <;> simp [h]

theorem pairwise_style {R : Range → Range → Prop} {x : Range} : (style x).Pairwise R := by
  unfold style
  split_ifs <;> simp

section Ranges

variable {pos alt src target len : Nat}

theorem forall_badgeFound {P : Range → Prop} : (∀ r ∈ badgeFound pos alt src target, P r) ↔
    ((P (.hide pos (pos + 1)) ∧ P (.hide (pos + alt + src + 6) (pos + alt + src + 7)) ∧
      P (.hide (pos + alt + src + 7) (pos + alt + src + 8)) ∧
      P (.hide (pos + alt + src + target + 8) (pos + alt + src + target + 9))) ∧
    (P (.hide (pos + 1) (pos + 3)) ∧ P (.hide (pos + alt + 3) (pos + alt + 4)) ∧
      P (.hide (pos + alt + 4) (pos + alt + 5)) ∧ P (.hide (pos + alt + src + 5) (pos + alt + src + 6)))) ∧
    P (.styled (pos + 1) (pos + alt + src + 6) .link) ∧ (0 < alt → P (.styled (pos + 3) (pos + alt + 3) .image)) := by
  have h1 : pos + 1 + (alt + src + 5) = pos + alt + src + 6 := by omega
  have h2 : pos + alt + src + 6 + 2 + target = pos + alt + src + target + 8 := by omega
  have h3 : pos + 1 + 2 + alt = pos + alt + 3 := by omega
  have h4 : pos + alt + 3 + 2 + src = pos + alt + src + 5 := by omega
  have himage : (Range.styled (pos + 3) (pos + alt + 3) .image).start <
      (Range.styled (pos + 3) (pos + alt + 3) .image).stop ↔ 0 < alt := by
    simp only [Range.styled]
    omega
  simp only [badgeFound, bracketed, delimiters, List.cons_append, List.nil_append, List.mem_cons, forall_eq_or_imp,
    forall_style, h1, h2, h3, h4, himage]
  tauto

/-- no two hides of a badge have the same bytes, and the image is shorter than the link's label -/
theorem badgeFound_differ (pos alt src target : Nat) : (badgeFound pos alt src target).Pairwise Differ := by
  simp only [badgeFound, bracketed, delimiters, List.cons_append, List.nil_append, List.pairwise_cons, List.mem_cons,
    forall_eq_or_imp, forall_style, pairwise_style, Differ, Range.hide, Range.styled, Range.extent, Range.len,
    Extent.mk.injEq, ne_eq, reduceCtorEq, not_true_eq_false, not_false_eq_true, true_implies, false_implies,
    implies_true, true_and, and_true]
  omega

/-- a byte of the label that no hide holds is one of the alternative text, which the image holds, or of the source -/
theorem forall_shortest {n q : Nat} (hstart : pos < q) (hstop : q < pos + alt + src + 6) :
    (∀ x ∈ badgeFound pos alt src target, x.extent.Has q → x.kind ≠ .hide ∧ n ≤ x.len) ↔
      (pos + 3 ≤ q ∧ q < pos + alt + 3) ∧ n ≤ alt ∨
        (pos + alt + 5 ≤ q ∧ q < pos + alt + src + 5) ∧ n ≤ alt + src + 5 := by
  have hlink : pos + alt + src + 6 - (pos + 1) = alt + src + 5 := by omega
  have himage : pos + alt + 3 - (pos + 3) = alt := by omega
  rw [forall_badgeFound]
  simp only [Range.hide, Range.styled, Range.extent, Range.len, Extent.Has, hlink, himage, ne_eq, reduceCtorEq,
    not_true_eq_false, not_false_eq_true, false_and, true_and, imp_false]
  constructor <;> intro h <;> omega

/-- **The overlap of a badge's link with its image is settled**: the image gets the alternative text, the delimiters of
the image get their bytes, and what is left of the link's label is the source. -/
theorem resolve_badgeFound (hs : 0 < src) (hlen : pos + alt + src + target + 9 ≤ len) :
    resolve (badgeFound pos alt src target) len = badgeRanges pos alt src target := by
  let f : Range → Range := fun r => if r.kind = .link then r.on ⟨pos + alt + 5, pos + alt + 5 + src⟩ else r
  have hfits : ∀ r ∈ badgeFound pos alt src target, r.fits len = true := by
    rw [forall_badgeFound]
    simp only [fits_iff, Range.hide, Range.styled]
    omega
  have hstyled : ∀ r ∈ badgeFound pos alt src target, r.kind ≠ .hide →
      ∃ e : Extent, e.start < e.stop ∧ f r = r.on e ∧ ∀ q, e.Has q ↔ r.extent.Has q ∧
        ∀ x ∈ badgeFound pos alt src target, x.extent.Has q → x.kind ≠ .hide ∧ r.len ≤ x.len := by
    rw [forall_badgeFound]
    refine ⟨⟨by simp [Range.hide], by simp [Range.hide]⟩, fun _ => ?_, fun ha _ => ?_⟩
    · refine ⟨⟨pos + alt + 5, pos + alt + 5 + src⟩, by simpa using hs, rfl, fun q => ?_⟩
      refine Iff.trans ?_ (and_congr_right fun hq : pos < q ∧ q < pos + alt + src + 6 =>
        forall_shortest hq.1 hq.2).symm
      simp only [Range.styled, Range.len, Extent.Has]
      omega
    · refine ⟨⟨pos + 3, pos + alt + 3⟩, by simp only; omega, rfl, fun q => ?_⟩
      refine Iff.trans ?_ (and_congr_right fun hq : pos + 3 ≤ q ∧ q < pos + alt + 3 =>
        forall_shortest (by omega) (by omega)).symm
      simp only [Range.styled, Range.len, Extent.Has]
      omega
  calc resolve (badgeFound pos alt src target) len = (badgeFound pos alt src target).map f :=
        resolve_eq_map hfits (badgeFound_differ pos alt src target) (fun r _ hk => by simp [f, hk]) hstyled
    _ = badgeRanges pos alt src target := by
        unfold badgeFound badgeRanges style
        split_ifs <;> rfl

/-- no two ranges of a badge share a byte -/
theorem badgeRanges_apart (pos alt src target : Nat) : (badgeRanges pos alt src target).Pairwise Range.Apart := by
  simp only [badgeRanges, delimiters, List.cons_append, List.nil_append, List.pairwise_cons, List.mem_cons,
    forall_eq_or_imp, forall_style, pairwise_style, Range.hide, Range.styled, Range.Apart, and_true]
  omega

end Ranges

/-! ## Badges on a line -/

def imageText (alt src : List Char) : List Char := '!' :: '[' :: (alt ++ ']' :: '(' :: (src ++ [')']))

def badgeText (alt src target : List Char) : List Char :=
  '[' :: (imageText alt src ++ ']' :: '(' :: (target ++ [')']))

/-- what the texts of a badge may be: any context is allowed, brackets and marks in the source and the target too -/
structure IsBadge (alt src target : List Char) : Prop where
  alt : ']' ∉ alt
  src : IsTarget src
  target : IsTarget target

/-- the tokens of a badge on line number `i`, behind those of the text in front of it if there is any -/
structure BadgeTokens (i : Nat) (front : List Char) (texts : List Node) (opens image closes : Node) : Prop where
  texts : front = [] ∧ texts = [] ∨ front ≠ [] ∧ ∃ text : Node, texts = [text] ∧ text.kind = .text ∧
    text.content? = some (String.ofList front) ∧ text.span? = some (.line i)
  opens : opens.kind = .linkOpen ∧ opens.markup = "[" ∧ opens.span? = some (.line i)
  image : image.kind = .image ∧ image.span? = some (.line i)
  closes : closes.kind = .linkClose

section Badge

variable {alt src target front suffix before after s : List Char} {i : Nat} {texts : List Node}
  {opens image closes n : Node}

theorem byteLen_imageText (alt src : List Char) : byteLen (imageText alt src) = byteLen alt + byteLen src + 5 := by
  have h1 : '!'.utf8Size = 1 := rfl
  have h2 : '['.utf8Size = 1 := rfl
  rw [imageText, byteLen_cons, byteLen_cons, byteLen_append, Marker.Link.byteLen_close, byteLen_nil]
  omega

theorem byteLen_badgeText (alt src target : List Char) :
    byteLen (badgeText alt src target) = byteLen alt + byteLen src + byteLen target + 9 := by
  have h : '['.utf8Size = 1 := rfl
  rw [badgeText, byteLen_cons, byteLen_append, byteLen_imageText, Marker.Link.byteLen_close, byteLen_nil]
  omega

theorem IsBadge.label (h : IsBadge alt src target) : Label (imageText alt src) :=
  Label.image h.alt h.src.2 .nil

/-- the search for a link finds the whole badge, with the image as its label -/
theorem IsBadge.findLink?_eq (h : IsBadge alt src target) (hfront : front.getLast? ≠ some '!') (suffix : List Char) :
    findLink? (front ++ badgeText alt src target ++ suffix) (byteLen front) =
      some ⟨⟨byteLen front, byteLen front + byteLen (badgeText alt src target)⟩,
        ⟨byteLen front + 1, byteLen front + 1 + byteLen (imageText alt src)⟩⟩ := by
  have hlink := Marker.Link.link?_complete h.label (List.cons_ne_nil _ _) h.target.2 h.target.1 suffix
  have hfound := Marker.Link.findLink?_complete front hfront hlink
  have hline : front ++ badgeText alt src target ++ suffix =
      front ++ '[' :: (imageText alt src ++ ']' :: '(' :: (target ++ ')' :: suffix)) := by simp [badgeText]
  rw [hline, hfound, byteLen_badgeText, byteLen_imageText]
  simp only [Parts.shift, Extent.shift, Option.some.injEq, Parts.mk.injEq, Extent.mk.injEq, Nat.add_zero, true_and]
  omega

/-- the search for an image finds that label -/
theorem IsBadge.findImage?_eq (h : IsBadge alt src target) (front suffix : List Char) :
    findImage? (front ++ badgeText alt src target ++ suffix) (byteLen front + 1) =
      some ⟨⟨byteLen front + 1, byteLen front + 1 + byteLen (imageText alt src)⟩,
        ⟨byteLen front + 3, byteLen front + 3 + byteLen alt⟩⟩ := by
  have himage := Marker.Link.image?_complete h.alt h.src.2 h.src.1 (']' :: '(' :: (target ++ ')' :: suffix))
  have hfound := Marker.Link.findImage?_complete (front ++ ['[']) himage
  have hline : front ++ badgeText alt src target ++ suffix = (front ++ ['[']) ++ '!' :: '[' ::
      (alt ++ ']' :: '(' :: (src ++ ')' :: (']' :: '(' :: (target ++ ')' :: suffix)))) := by
    simp [badgeText, imageText]
  have hlen : byteLen (front ++ ['[']) = byteLen front + 1 := byteLen_append front ['[']
  rw [hlen] at hfound
  rw [hline, hfound, byteLen_imageText]
  simp only [Parts.shift, Extent.shift, Option.some.injEq, Parts.mk.injEq, Extent.mk.injEq, Nat.add_zero, true_and]
  omega

theorem IsBadge.src_pos (h : IsBadge alt src target) : 0 < byteLen src := byteLen_pos h.src.1

/-! ## The tokens of a badge -/

section Tokens

variable (h : BadgeTokens i front texts opens image closes)
  (hline : LineAt i before (front ++ badgeText alt src target ++ suffix) after)
  (hs : s = before ++ (front ++ badgeText alt src target ++ suffix) ++ after)
include h hline hs

/-- past the text in front of a badge the scan stands at the badge -/
theorem BadgeTokens.run_front : Scan.run (.ofText s) ⟨byteLen before, []⟩ texts = [] ∧
    Scan.after (.ofText s) ⟨byteLen before, []⟩ texts = ⟨byteLen (before ++ front), []⟩ := by
  rcases h.texts with ⟨rfl, rfl⟩ | ⟨hne, text, rfl, hkind, hcontent, hspan⟩
  · rw [List.append_nil]
    exact ⟨rfl, rfl⟩
  · have haround := around_of_lineAt (k := []) (m := front) (l := badgeText alt src target ++ suffix)
      (by simpa using hline)
    have htext : before ++ ([] ++ front ++ (badgeText alt src target ++ suffix)) ++ after = s := by simp [hs]
    rw [htext] at haround
    have hcount : (before ++ []).count '\n' = i := by rw [List.append_nil, hline.number]
    have hskip : Scan.skipText (.ofText s) text ⟨byteLen before, []⟩ = _ :=
      Scan.skipText_complete haround (Or.inl (by simp)) hne (by rw [hspan, hcount]) hcontent
    have hstep : Scan.step (.ofText s) ⟨byteLen before, []⟩ text = (⟨byteLen (before ++ front), []⟩, []) := by
      rw [Scan.step, hkind, hskip, List.append_nil, byteLen_append]
    exact Scan.run_cons_of_step hstep []

omit h hs in
theorem count_front : (before ++ front).count '\n' = i := by
  have hlf : '\n' ∉ front := fun hmem => hline.noFeed (by simp [hmem])
  rw [List.count_append, List.count_eq_zero.2 hlf, Nat.add_zero, hline.number]

/-- the link finds the whole badge, its label begins one byte behind -/
theorem BadgeTokens.step_opens (hbadge : IsBadge alt src target) (hfront : front.getLast? ≠ some '!') :
    Scan.step (.ofText s) ⟨byteLen (before ++ front), []⟩ opens =
      (⟨byteLen (before ++ front) + 1,
        [.link (some (byteLen (before ++ front) + byteLen (badgeText alt src target)))]⟩,
        bracketed (byteLen (before ++ front)) 1 (byteLen alt + byteLen src + 5) (byteLen target) .link) := by
  have hbang : (before ++ front).getLast? ≠ some '!' := by
    by_cases hne : front = []
    · subst hne
      rw [List.append_nil]
      rcases hline.begins with rfl | hlast
      · simp
      · simp [hlast]
    · rwa [List.getLast?_append_of_ne_nil _ hne]
  have haround := around_of_lineAt hline
  rw [← hs] at haround
  have hfound : Scan.openInline? (.ofText s) _ ⟨byteLen (before ++ front), []⟩ = _ :=
    Scan.openInline?_complete haround (Or.inl rfl) rfl hbadge.label (List.cons_ne_nil _ _) hbadge.target.2
      hbadge.target.1 hbang
  rw [byteLen_imageText] at hfound
  rw [Scan.step, h.opens.1]
  exact Scan.openLink_complete (by rw [h.opens.2.2, count_front hline]) (Or.inr ⟨h.opens.2.1, hfound⟩)

/-- the image is looked for where the link's label begins -/
theorem BadgeTokens.step_image (hbadge : IsBadge alt src target) (fs : List Frame) :
    Scan.step (.ofText s) ⟨byteLen (before ++ front) + 1, fs⟩ image =
      (⟨byteLen (before ++ front) + 1 + byteLen (imageText alt src), fs⟩,
        delimiters (byteLen (before ++ front) + 1) 2 (byteLen alt) (byteLen src) ++
          style (.styled (byteLen (before ++ front) + 3) (byteLen (before ++ front) + 3 + byteLen alt) .image)) := by
  have hcut : front ++ badgeText alt src target ++ suffix =
      (front ++ ['[']) ++ imageText alt src ++ ']' :: '(' :: (target ++ ')' :: suffix) := by simp [badgeText]
  have haround := around_of_lineAt (hcut ▸ hline)
  rw [← hcut, ← hs, ← List.append_assoc] at haround
  have hlen : byteLen (before ++ front ++ ['[']) = byteLen (before ++ front) + 1 := byteLen_append _ ['[']
  have hcount : (before ++ front ++ ['[']).count '\n' = i := by
    rw [List.count_append, count_front hline]
    rfl
  have hfound : Scan.image (.ofText s) image ⟨byteLen (before ++ front) + 1, fs⟩ = _ :=
    Scan.image_found haround (Or.inl hlen.symm) rfl hbadge.alt hbadge.src.2 hbadge.src.1 (by rw [h.image.2, hcount])
  rw [hlen] at hfound
  rw [Scan.step, h.image.1]
  exact hfound

/-- the tokens of a badge give a link with the whole image as its label, and the image; behind them the scan stands
behind the badge -/
theorem BadgeTokens.run_badge (hbadge : IsBadge alt src target) (hfront : front.getLast? ≠ some '!') :
    Scan.run (.ofText s) ⟨byteLen before, []⟩ (texts ++ [opens, image, closes]) =
        badgeFound (byteLen (before ++ front)) (byteLen alt) (byteLen src) (byteLen target) ∧
      Scan.after (.ofText s) ⟨byteLen before, []⟩ (texts ++ [opens, image, closes]) =
        ⟨byteLen (before ++ front) + byteLen (badgeText alt src target), []⟩ := by
  obtain ⟨hrun, hafter⟩ := h.run_front hline hs
  obtain ⟨himage, hnext⟩ := Scan.run_cons_of_step (h.step_image hline hs hbadge
    [.link (some (byteLen (before ++ front) + byteLen (badgeText alt src target)))]) []
  have hnotes : Scan.after (.ofText s) _ [image] =
      ⟨_, Frame.notes [.link (some (byteLen (before ++ front) + byteLen (badgeText alt src target)))] []⟩ := hnext
  obtain ⟨hlink, hstop⟩ := Scan.read_link (h.step_opens hline hs hbadge hfront) himage hnotes h.closes
  have hmax : max (byteLen (before ++ front) + 1 + byteLen (imageText alt src))
      (byteLen (before ++ front) + byteLen (badgeText alt src target)) =
        byteLen (before ++ front) + byteLen (badgeText alt src target) := by
    rw [byteLen_badgeText, byteLen_imageText]
    omega
  rw [Scan.run_append, Scan.after_append, hrun, hafter, List.nil_append]
  constructor
  · refine hlink.trans ?_
    rw [Scan.run, List.append_nil]
    rfl
  · refine hstop.trans ?_
    rw [Option.getD_some, hmax]
    rfl

end Tokens

/-! ## What the ranges are over -/

/-- the kind of a range, and the text under it -/
def Range.cover (s : List Char) (r : Range) : Kind × Option (List Char) := (r.kind, r.slice? s)

/-- the hides of a link or image are over its opener and `]`, `(` and `)` -/
theorem map_cover_delimiters (a opener label target b : List Char)
    (hs : s = a ++ opener ++ label ++ ']' :: '(' :: (target ++ ')' :: b)) :
    (delimiters (byteLen a) (byteLen opener) (byteLen label) (byteLen target)).map (Range.cover s) =
      [(.hide, some opener), (.hide, some [']']), (.hide, some ['(']), (.hide, some [')'])] := by
  let stop := byteLen a + byteLen opener + byteLen label
  have h : Parts.Reads _ opener s := ⟨a, label, target, b, hs, rfl⟩
  have h1 : slice? s (byteLen a) (byteLen a + byteLen opener) = some opener := h.slice_opener
  have h2 : slice? s stop (stop + 1) = some [']'] := h.slice_closeBracket
  have h3 : slice? s (stop + 1) (stop + 2) = some ['('] := h.slice_openParen
  have h4 : slice? s (stop + 2 + byteLen target) (stop + 2 + byteLen target + 1) = some [')'] := h.slice_closeParen
  simp only [stop] at h2 h3 h4
  simp only [delimiters, List.map_cons, List.map_nil, Range.cover, Range.slice?, Range.hide, h1, h2, h3, h4]

/-- the ranges of a badge are over its eight delimiters, its source, and its alternative text if it is not empty -/
theorem map_cover_badgeRanges (hs : s = before ++ (front ++ badgeText alt src target ++ suffix) ++ after) :
    (badgeRanges (byteLen (before ++ front)) (byteLen alt) (byteLen src) (byteLen target)).map (Range.cover s) =
      [(.hide, some ['[']), (.hide, some [']']), (.hide, some ['(']), (.hide, some [')']), (.link, some src),
        (.hide, some ['!', '[']), (.hide, some [']']), (.hide, some ['(']), (.hide, some [')'])] ++
          if alt = [] then [] else [(.image, some alt)] := by
  have hlen : byteLen (before ++ front ++ ['[']) = byteLen (before ++ front) + 1 := byteLen_append _ ['[']
  have hlink := map_cover_delimiters (before ++ front) ['['] (imageText alt src) target (suffix ++ after) (s := s)
    (by simp [hs, badgeText])
  have himage := map_cover_delimiters (before ++ front ++ ['[']) ['!', '['] alt src
    (']' :: '(' :: (target ++ ')' :: (suffix ++ after))) (s := s) (by simp [hs, badgeText, imageText])
  rw [byteLen_imageText, show byteLen ['['] = 1 from rfl] at hlink
  rw [hlen, show byteLen ['!', '['] = 2 from rfl] at himage
  have hsrc : slice? s (byteLen (before ++ front) + byteLen alt + 5)
      (byteLen (before ++ front) + byteLen alt + 5 + byteLen src) = some src := by
    refine slice?_eq_some.2 ⟨before ++ front ++ ['[', '!', '['] ++ alt ++ [']', '('],
      ')' :: (']' :: '(' :: (target ++ ')' :: (suffix ++ after))), by simp [hs, badgeText, imageText], ?_, rfl⟩
    rw [byteLen_append _ [']', '('], byteLen_append _ alt, byteLen_append _ ['[', '!', '['],
      show byteLen ['[', '!', '['] = 3 from rfl, show byteLen [']', '('] = 2 from rfl]
    omega
  have halt : slice? s (byteLen (before ++ front) + 3) (byteLen (before ++ front) + 3 + byteLen alt) = some alt := by
    refine slice?_eq_some.2 ⟨before ++ front ++ ['[', '!', '['],
      ']' :: '(' :: (src ++ ')' :: (']' :: '(' :: (target ++ ')' :: (suffix ++ after)))),
      by simp [hs, badgeText, imageText], ?_, rfl⟩
    rw [byteLen_append _ ['[', '!', '[']]
    rfl
  have hstyle : (style (.styled (byteLen (before ++ front) + 3) (byteLen (before ++ front) + 3 + byteLen alt) .image)).map
      (Range.cover s) = if alt = [] then [] else [(.image, some alt)] := by
    by_cases hne : alt = []
    · rw [if_pos hne, hne, style, if_neg (by simp [Range.styled])]
      rfl
    · rw [if_neg hne, style_styled (Nat.lt_add_of_pos_right (byteLen_pos hne))]
      simp only [List.map_cons, List.map_nil, Range.cover, Range.slice?, Range.styled, halt]
  rw [badgeRanges, List.map_append, List.map_cons, List.map_append, hlink, himage, hstyle]
  simp only [Range.cover, Range.slice?, Range.styled, hsrc, List.cons_append, List.nil_append]

/-! ## The rule -/

/-- what is found of a badge behind `front` on a line that begins at `base`, and what its tokens give -/
structure BadgeRule (s line : List Char) (base : Nat) (front alt src target : List Char) (n : Node) : Prop where
  /-- the search for a link finds the whole badge, with the image as its label -/
  link : findLink? line (byteLen front) =
    some ⟨⟨byteLen front, byteLen front + byteLen (badgeText alt src target)⟩,
      ⟨byteLen front + 1, byteLen front + 1 + byteLen (imageText alt src)⟩⟩
  /-- the search for an image finds that label -/
  image : findImage? line (byteLen front + 1) =
    some ⟨⟨byteLen front + 1, byteLen front + 1 + byteLen (imageText alt src)⟩,
      ⟨byteLen front + 3, byteLen front + 3 + byteLen alt⟩⟩
  /-- the ranges stand where the badge does -/
  ranges : ofTree (.ofText s) n = badgeRanges (base + byteLen front) (byteLen alt) (byteLen src) (byteLen target)
  /-- each of the eight delimiters is hidden once, the source is styled, and an alternative text that is not empty -/
  covers : (ofTree (.ofText s) n).map (Range.cover s) =
    [(.hide, some ['[']), (.hide, some [']']), (.hide, some ['(']), (.hide, some [')']), (.link, some src),
      (.hide, some ['!', '[']), (.hide, some [']']), (.hide, some ['(']), (.hide, some [')'])] ++
        if alt = [] then [] else [(.image, some alt)]
  apart : (ofTree (.ofText s) n).Pairwise Range.Apart
  /-- behind the tokens the scan stands behind the badge -/
  cursor : ((Scan.start (.ofText s) n.span?).after (.ofText s) n.children).cursor =
    base + byteLen front + byteLen (badgeText alt src target)

/-- **A badge is found where it stands, whatever is around it, and gives each of its parts once.** -/
theorem badge_exact (hbadge : IsBadge alt src target) (hfront : front.getLast? ≠ some '!')
    (hline : LineAt i before (front ++ badgeText alt src target ++ suffix) after)
    (htokens : BadgeTokens i front texts opens image closes) (hkind : n.kind = .inline)
    (hspan : n.span? = some (.line i)) (hchildren : n.children = texts ++ [opens, image, closes]) :
    BadgeRule (before ++ (front ++ badgeText alt src target ++ suffix) ++ after)
      (front ++ badgeText alt src target ++ suffix) (byteLen before) front alt src target n := by
  obtain ⟨s, hs⟩ : ∃ s, s = before ++ (front ++ badgeText alt src target ++ suffix) ++ after := ⟨_, rfl⟩
  have hstart : Scan.start (.ofText s) n.span? = ⟨byteLen before, []⟩ := by
    have hbase : (Source.ofText s).lines.start? i = some (byteLen before) := by
      rw [LineIndex.start?, hs]
      exact congrArg _ (LineIndex.extent?_of_lineAt hline)
    rw [Scan.start, hspan, Option.bind_some, LineSpan.line, LineSpan.ofLines, hbase, Option.getD_some]
  obtain ⟨hrun, hafter⟩ := htokens.run_badge hline hs hbadge hfront
  have hcollect : collect (.ofText s) n =
      badgeFound (byteLen (before ++ front)) (byteLen alt) (byteLen src) (byteLen target) := by
    rw [collect, walkAll_block (by rw [hkind]; rfl), walk_container hkind, hstart, hchildren, hrun]
  have hranges : ofTree (.ofText s) n =
      badgeRanges (byteLen (before ++ front)) (byteLen alt) (byteLen src) (byteLen target) := by
    rw [ofTree, hcollect]
    refine resolve_badgeFound hbadge.src_pos ?_
    simp only [hs, Source.ofText, byteLen_append, byteLen_badgeText]
    omega
  rw [← hs]
  refine ⟨hbadge.findLink?_eq hfront suffix, hbadge.findImage?_eq front suffix, ?_, ?_, ?_, ?_⟩
  · rw [hranges, byteLen_append]
  · rw [hranges]
    exact map_cover_badgeRanges hs
  · rw [hranges]
    exact badgeRanges_apart _ _ _ _
  · rw [hstart, hchildren, hafter, byteLen_append]

end Badge

/-- brackets and marks in front of a badge, in all its texts and behind it, on the second line -/
theorem badge_exact_brackets :
    let front := "![](".toList
    let alt := "a[(".toList
    let src := "b](c".toList
    let target := "![d](e".toList
    let line := front ++ badgeText alt src target ++ "](f)".toList
    let text : Node := ⟨.text, some (.line 1), "", "", none, some "![](", []⟩
    let opens : Node := ⟨.linkOpen, some (.line 1), "[", "a", none, none, []⟩
    let image : Node := ⟨.image, some (.line 1), "", "img", none, none, []⟩
    let closes : Node := ⟨.linkClose, some (.line 1), "", "a", none, none, []⟩
    let n : Node := ⟨.inline, some (.line 1), "", "", none, none, [text, opens, image, closes]⟩
    IsBadge alt src target ∧ front.getLast? ≠ some '!' ∧ LineAt 1 "x\n".toList line "\ny".toList ∧
      BadgeTokens 1 front [text] opens image closes ∧ n.kind = .inline ∧ n.span? = some (.line 1) ∧
      n.children = [text] ++ [opens, image, closes] ∧
      BadgeRule ("x\n".toList ++ line ++ "\ny".toList) line 2 front alt src target n ∧
      ofTree (.ofText ("x\n".toList ++ line ++ "\ny".toList)) n =
        [.hide 6 7, .hide 19 20, .hide 20 21, .hide 27 28, .styled 14 18 .link, .hide 7 9, .hide 12 13, .hide 13 14,
          .hide 18 19, .styled 9 12 .image] := by
  intro front alt src target line text opens image closes n
  have hbadge : IsBadge alt src target := ⟨by decide, ⟨by decide, by decide⟩, ⟨by decide, by decide⟩⟩
  have hfront : front.getLast? ≠ some '!' := by decide
  have hline : LineAt 1 "x\n".toList line "\ny".toList :=
    ⟨by decide, Or.inr rfl, by decide, Or.inr (Or.inl ⟨rfl, by decide⟩)⟩
  have htokens : BadgeTokens 1 front [text] opens image closes :=
    ⟨Or.inr ⟨by decide, text, rfl, rfl, rfl, rfl⟩, ⟨rfl, rfl, rfl⟩, ⟨rfl, rfl⟩, rfl⟩
  have hrule := badge_exact hbadge hfront hline htokens (n := n) rfl rfl rfl
  exact ⟨hbadge, hfront, hline, htokens, rfl, rfl, rfl, hrule, by decide⟩

end MarkVeil.Decoration
