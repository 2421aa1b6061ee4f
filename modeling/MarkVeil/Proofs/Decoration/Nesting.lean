/-
Emphasis inside emphasis.

Of strong and em elements inside one another only the outermost is styled. A token stream need not be balanced: a
closing token discards what is still open above its frame, and links come in between. What holds of every stack of
frames is `Layered`: there is at most one outer frame, and every suppressed frame lies above it. A step pushes a frame
or takes some off the top (`Scan.frames_step`), which keeps the layers. A closing token `Pairs` with the token that
pushed the frame it closes; between the two the frame stays where it is and only notes what opens (`Scan.kept_after`).
Main result:
- `emphasis_nests`: the layers hold wherever a scan comes, and each pair is styled exactly as its own tokens and those
  between them call for.
-/
import MarkVeil.Proofs.Decoration.Origin
import MarkVeil.Proofs.Phrase.Recovery

namespace MarkVeil.Decoration

open MarkVeil.Text
open MarkVeil.Token (Node)
open MarkVeil.Marker (Emphasis)

/-! ## Layers -/

namespace Frame

/-- an emphasis that is left to the outer one below it -/
def isSuppressed : Frame → Bool
  | .emphasis _ _ _ _ suppressed => suppressed
  | .link _ => false

/-- below an outer frame there is no other, and below a suppressed frame there is one; frames are innermost first -/
def Layered : List Frame → Prop
  | [] => True
  | f :: fs =>
    (f.isOuter = true → fs.any isOuter = false) ∧ (f.isSuppressed = true → fs.any isOuter = true) ∧ Layered fs

variable {e : Emphasis} {f : Frame} {fs gs a b : List Frame}

theorem isSuppressed_mix (f : Frame) (e : Emphasis) : (f.mix e).isSuppressed = f.isSuppressed := by cases f <;> rfl

theorem isOpen_mix (x : Emphasis) (f : Frame) (e : Emphasis) : (f.mix e).isOpen x = f.isOpen x := by cases f <;> rfl

theorem length_note (fs : List Frame) (e : Emphasis) : (note fs e).length = fs.length := by
  simpa using congrArg List.length (map_isOuter_note fs e)

theorem any_isOuter_note (fs : List Frame) (e : Emphasis) : (note fs e).any isOuter = fs.any isOuter :=
  any_isOuter_notes fs [e]

theorem note_append_outer (h : b.any isOuter = true) (a : List Frame) (e : Emphasis) :
    note (a ++ b) e = a ++ note b e := by
  induction a with
  | nil => rfl
  | cons f a ih =>
    have houter : (a ++ b).any isOuter = true := by rw [List.any_append, h, Bool.or_true]
    rw [List.cons_append, note_cons (Or.inr houter), ih, List.cons_append]

theorem note_append_none (h : b.any isOuter = false) (a : List Frame) (e : Emphasis) :
    note (a ++ b) e = note a e ++ b := by
  have hnone : mixOuter? e b = none := by
    rwa [← isSome_mixOuter? e, Option.isSome_eq_false_iff, Option.isNone_iff_eq_none] at h
  have hmix : mixOuter? e (a ++ b) = (mixOuter? e a).map (· ++ b) := by
    induction a with
    | nil => exact hnone
    | cons f a ih =>
      rw [List.cons_append, mixOuter?, ih, mixOuter?]
      cases mixOuter? e a with
      | some gs => rfl
      | none => by_cases hf : f.isOuter = true <;> simp [hf]
  rw [note, hmix, note]
  cases mixOuter? e a <;> rfl

theorem note_outer (hf : f.isOuter = true) (hb : b.any isOuter = false) (e : Emphasis) :
    note (f :: b) e = f.mix e :: b := by
  have hnone : mixOuter? e b = none := by
    rwa [← isSome_mixOuter? e, Option.isSome_eq_false_iff, Option.isNone_iff_eq_none] at hb
  simp [note, mixOuter?, hnone, hf]

/-- a frame that stands somewhere in the stack stands there behind a note, which it takes if it is the outer one -/
theorem note_suffix (h : f :: b <:+ fs) (e : Emphasis) :
    (if f.isOuter && !b.any isOuter then f.mix e else f) :: note b e <:+ note fs e := by
  obtain ⟨a, rfl⟩ := h
  cases hb : b.any isOuter with
  | true =>
    have hany : (f :: b).any isOuter = true := by rw [List.any_cons, hb, Bool.or_true]
    refine ⟨a, ?_⟩
    rw [note_append_outer hany, note_cons (Or.inr hb)]
    simp
  | false =>
    rw [note_of_none hb]
    cases hf : f.isOuter with
    | true =>
      have hany : (f :: b).any isOuter = true := by rw [List.any_cons, hf, Bool.true_or]
      refine ⟨a, ?_⟩
      rw [note_append_outer hany, note_outer hf hb]
      simp
    | false =>
      have hany : (f :: b).any isOuter = false := by rw [List.any_cons, hf, hb, Bool.false_or]
      refine ⟨note a e, ?_⟩
      rw [note_append_none hany]
      simp

/-- a frame behind a note was there before, at its height -/
theorem exists_of_note_suffix (h : f :: b <:+ note fs e) :
    ∃ f' b', f' :: b' <:+ fs ∧ b'.length = b.length ∧ ∀ x, f'.isOpen x = f.isOpen x := by
  obtain ⟨a, ha⟩ := h
  have hlook : (note fs e).map (fun f x => f.isOpen x) = fs.map fun f x => f.isOpen x := by
    apply map_note
    intro f e
    funext x
    exact isOpen_mix x f e
  rw [← ha, List.map_append, List.map_cons] at hlook
  obtain ⟨a', fs', rfl, -, hfs'⟩ := List.map_eq_append_iff.1 hlook.symm
  obtain ⟨f', b', rfl, hf', hb'⟩ := List.map_eq_cons_iff.1 hfs'
  refine ⟨f', b', ⟨a', rfl⟩, ?_, ?_⟩
  · simpa using congrArg List.length hb'
  · intro x
    exact congrFun hf' x

/-- the layers are a matter of which frames are outer and which are suppressed -/
theorem Layered.congr (h : Layered fs)
    (hmap : fs.map (fun f => (f.isOuter, f.isSuppressed)) = gs.map fun f => (f.isOuter, f.isSuppressed)) :
    Layered gs := by
  induction fs generalizing gs with
  | nil =>
    cases gs with
    | nil => trivial
    | cons g gs => simp at hmap
  | cons f fs ih =>
    cases gs with
    | nil => simp at hmap
    | cons g gs =>
      obtain ⟨houter, hsuppressed, hfs⟩ := h
      simp only [List.map_cons, List.cons.injEq, Prod.mk.injEq] at hmap
      obtain ⟨⟨hg, hg'⟩, htail⟩ := hmap
      have hany : fs.any isOuter = gs.any isOuter := by
        have := congrArg (List.any · Prod.fst) htail
        simpa [List.any_map, Function.comp_def] using this
      refine ⟨?_, ?_, ih hfs htail⟩
      · rw [← hg, ← hany]
        exact houter
      · rw [← hg', ← hany]
        exact hsuppressed

theorem Layered.note (h : Layered fs) (e : Emphasis) : Layered (note fs e) := by
  apply h.congr
  symm
  apply map_note
  intro f x
  rw [isOuter_mix, isSuppressed_mix]

theorem Layered.pushed (h : Layered fs) (e : Emphasis) (marker : List Char) (start? : Option Nat) :
    Layered (pushed e marker start? fs) := by
  cases he : e.merges with
  | false => simpa [Frame.pushed, Layered, isOuter, isSuppressed, he] using h
  | true =>
    refine ⟨?_, ?_, ?_⟩
    · intro houter
      simpa [isOuter, he, any_isOuter_note] using houter
    · intro hsuppressed
      simpa [isSuppressed, he, any_isOuter_note] using hsuppressed
    · simpa [Frame.pushed, he] using h.note e

theorem Layered.suffix (h : Layered fs) (hgs : gs <:+ fs) : Layered gs := by
  obtain ⟨a, rfl⟩ := hgs
  induction a with
  | nil => exact h
  | cons f a ih => exact ih h.2.2

theorem Layered.countP_le_one (h : Layered fs) : fs.countP isOuter ≤ 1 := by
  induction fs with
  | nil => exact Nat.zero_le 1
  | cons f fs ih =>
    obtain ⟨houter, -, hfs⟩ := h
    rw [List.countP_cons]
    split_ifs with hf
    · have hnone : fs.countP isOuter = 0 := by
        rw [List.countP_eq_zero]
        intro g hg
        simpa using List.any_eq_false.1 (houter hf) g hg
      omega
    · exact ih hfs

theorem Layered.above (h : Layered (a ++ f :: b)) (hf : f.isSuppressed = true) : ∃ g ∈ b, g.isOuter = true := by
  have hb : Layered (f :: b) := h.suffix ⟨a, rfl⟩
  exact List.any_eq_true.1 (hb.2.1 hf)

end Frame

/-! ## What a step does to the frames -/

namespace Scan

variable {src : Source} {sc : Scan} {n o c : Node} {e x : Emphasis} {ns inside : List Node}

/-- where the content begins of the emphasis that `o` opens: behind its marker, if that is found -/
def contentStart? (src : Source) (sc : Scan) (e : Emphasis) (o : Node) : Option Nat :=
  (sc.locateOpen? src o (markerOf o e.defaultMarker.toList)).map (· + byteLen (markerOf o e.defaultMarker.toList))

theorem frames_openEmphasis (src : Source) (sc : Scan) (n : Node) (e : Emphasis) :
    (sc.openEmphasis src n e).1.frames =
      Frame.pushed e (markerOf n e.defaultMarker.toList) (sc.contentStart? src e n) sc.frames := by
  cases he : e.merges with
  | true => simp [openEmphasis, contentStart?, Frame.isSome_mixOuter?, Frame.note, Frame.pushed, he]
  | false => simp [openEmphasis, contentStart?, Frame.pushed, he]

/-- behind a closing token is left what is below the frame that it closes -/
theorem frames_closeEmphasis (src : Source) (sc : Scan) (n : Node) (e : Emphasis) :
    (sc.closeEmphasis src n e).1.frames = sc.frames ∧ sc.frames.any (·.isOpen e) = false ∨
      ∃ f, f.isOpen e = true ∧
        (sc.frames.dropWhile fun f => !f.isOpen e) = f :: (sc.closeEmphasis src n e).1.frames := by
  cases hdrop : sc.frames.dropWhile fun f => !f.isOpen e with
  | nil =>
    left
    have hnone : sc.frames.any (·.isOpen e) = false := by
      rw [List.any_eq_false]
      intro f hf
      simpa using List.dropWhile_eq_nil_iff.1 hdrop f hf
    refine ⟨?_, hnone⟩
    simp only [closeEmphasis, hdrop]
  | cons f fs =>
    right
    have hf : f.isOpen e = true := by
      have := List.head_dropWhile_not (fun f => !Frame.isOpen e f) (l := sc.frames) (by rw [hdrop]; simp)
      simpa [hdrop] using this
    refine ⟨f, hf, ?_⟩
    cases f with
    | link resume? => simp [Frame.isOpen] at hf
    | emphasis e' marker start? mixed suppressed =>
      simp only [closeEmphasis, hdrop]
      split <;> rfl

theorem suffix_closeEmphasis (src : Source) (sc : Scan) (n : Node) (e : Emphasis) :
    (sc.closeEmphasis src n e).1.frames <:+ sc.frames := by
  rcases frames_closeEmphasis src sc n e with ⟨h, -⟩ | ⟨f, -, h⟩
  · rw [h]
  · have hsuffix := List.dropWhile_suffix (fun f => !Frame.isOpen e f) (l := sc.frames)
    rw [h] at hsuffix
    exact (List.suffix_cons _ _).trans hsuffix

theorem frames_closeLink (sc : Scan) : sc.closeLink.frames <:+ sc.frames := by
  unfold closeLink
  split
  next resume? fs hdrop =>
    have hsuffix := List.dropWhile_suffix (fun f => !Frame.isLink f) (l := sc.frames)
    rw [hdrop] at hsuffix
    exact (List.suffix_cons _ _).trans hsuffix
  next => exact List.suffix_refl _

theorem frames_codeSpan (src : Source) (sc : Scan) (n : Node) : (sc.codeSpan src n).1.frames = sc.frames := by
  simp only [codeSpan]
  split
  · rfl
  · split <;> rfl

theorem frames_openLink (src : Source) (sc : Scan) (n : Node) :
    ∃ resume?, (sc.openLink src n).1.frames = .link resume? :: sc.frames := by
  simp only [openLink]
  split
  next resume cursor rs h => exact ⟨some resume, rfl⟩
  next => exact ⟨none, rfl⟩

theorem frames_image (src : Source) (sc : Scan) (n : Node) : (sc.image src n).1.frames = sc.frames := by
  unfold image
  split <;> rfl

theorem ofOpen?_of_ofClose? {k : Token.Kind} (h : Emphasis.ofClose? k = some e) : Emphasis.ofOpen? k = none := by
  unfold Emphasis.ofClose? at h
  split at h <;> first | rfl | simp at h

theorem ofOpen?_of_isPassed {k : Token.Kind} (h : isPassed k = true) : Emphasis.ofOpen? k = none := by
  simp only [isPassed, Bool.and_eq_true, Option.isNone_iff_eq_none] at h
  exact h.1.1

/-- **All that a token does to the frames**: one that opens an emphasis or a link pushes a frame, any other takes some
off the top or none. -/
theorem frames_step (src : Source) (sc : Scan) (n : Node) :
    (∃ e, Emphasis.ofOpen? n.kind = some e ∧ (sc.step src n).1.frames =
      Frame.pushed e (markerOf n e.defaultMarker.toList) (sc.contentStart? src e n) sc.frames) ∨
    Emphasis.ofOpen? n.kind = none ∧ ((∃ resume?, (sc.step src n).1.frames = .link resume? :: sc.frames) ∨
      (sc.step src n).1.frames <:+ sc.frames) := by
  refine step_cases src sc n ?text ?opening ?closing ?code ?linkOpening ?linkClosing ?image ?other
  case text =>
    intro hk
    refine Or.inr ⟨by rcases hk with hk | hk <;> (rw [hk]; rfl), Or.inr ?_⟩
    rw [frames_skipText]
  case opening =>
    intro e hk
    exact Or.inl ⟨e, hk, frames_openEmphasis src sc n e⟩
  case closing =>
    intro e hk
    exact Or.inr ⟨ofOpen?_of_ofClose? hk, Or.inr (suffix_closeEmphasis src sc n e)⟩
  case code =>
    intro hk
    refine Or.inr ⟨by rw [hk]; rfl, Or.inr ?_⟩
    rw [frames_codeSpan]
  case linkOpening =>
    intro hk
    exact Or.inr ⟨by rw [hk]; rfl, Or.inl (frames_openLink src sc n)⟩
  case linkClosing =>
    intro hk
    exact Or.inr ⟨by rw [hk]; rfl, Or.inr (frames_closeLink sc)⟩
  case image =>
    intro hk
    refine Or.inr ⟨by rw [hk]; rfl, Or.inr ?_⟩
    rw [frames_image]
  case other =>
    intro hk
    exact Or.inr ⟨ofOpen?_of_isPassed hk, Or.inr (List.suffix_refl _)⟩

theorem step_layered (h : Frame.Layered sc.frames) (n : Node) : Frame.Layered (sc.step src n).1.frames := by
  rcases frames_step src sc n with ⟨e, -, hframes⟩ | ⟨-, ⟨resume?, hframes⟩ | hframes⟩
  · rw [hframes]
    exact h.pushed e _ _
  · rw [hframes]
    exact ⟨by simp [Frame.isOuter], by simp [Frame.isSuppressed], h⟩
  · exact h.suffix hframes

theorem after_layered (h : Frame.Layered sc.frames) (ns : List Node) : Frame.Layered (sc.after src ns).frames := by
  induction ns generalizing sc with
  | nil => exact h
  | cons n ns ih =>
    apply ih
    exact step_layered h n

/-! ## Pairs -/

/-- a token that opens strong inside em, or em inside strong -/
def mixes (e : Emphasis) (n : Node) : Bool :=
  match Emphasis.ofOpen? n.kind with
  | some x => x.merges && e != x
  | none => false

/-- `o` opens an emphasis, the tokens `inside` leave its frame on the stack, and `c` closes it: it takes the stack back
to where `o` found it -/
structure Pairs (src : Source) (sc : Scan) (e : Emphasis) (o : Node) (inside : List Node) (c : Node) : Prop where
  opens : Emphasis.ofOpen? o.kind = some e
  stays : ∀ ns, ns <+: inside → sc.frames.length < (sc.after src (o :: ns)).frames.length
  closes : Emphasis.ofClose? c.kind = some e
  meets : (sc.after src (o :: (inside ++ [c]))).frames.length = sc.frames.length

/-- where the content stops of the emphasis that `o` opened: at the marker of `c`, or of `o` if `c` has none -/
def contentStop? (src : Source) (sc : Scan) (e : Emphasis) (o c : Node) : Option Nat :=
  sc.locateClose? src c (markerOf c (markerOf o e.defaultMarker.toList))

theorem after_snoc (src : Source) (sc : Scan) (ns : List Node) (n : Node) :
    sc.after src (ns ++ [n]) = ((sc.after src ns).step src n).1 :=
  after_append src sc ns [n]

/-- the frame that `o` pushed, when the tokens `ns` have been read behind it -/
def frameOver (src : Source) (sc : Scan) (e : Emphasis) (o : Node) (ns : List Node) : Frame :=
  .emphasis e (markerOf o e.defaultMarker.toList) (sc.contentStart? src e o)
    (e.merges && !sc.frames.any Frame.isOuter && ns.any (mixes e)) (e.merges && sc.frames.any Frame.isOuter)

theorem frameOver_skip (h : mixes e n = false) : frameOver src sc e o (ns ++ [n]) = frameOver src sc e o ns := by
  simp [frameOver, h]

/-- it notes what opens inside, unless an outer frame below it does -/
theorem frameOver_mix (hx : Emphasis.ofOpen? n.kind = some x) (hm : x.merges = true) :
    frameOver src sc e o (ns ++ [n]) =
      if (frameOver src sc e o ns).isOuter && !sc.frames.any Frame.isOuter then (frameOver src sc e o ns).mix x
      else frameOver src sc e o ns := by
  have hmixes : mixes e n = (e != x) := by simp [mixes, hx, hm]
  cases he : e.merges <;> cases hcovered : sc.frames.any Frame.isOuter <;>
    simp [frameOver, Frame.isOuter, Frame.mix, he, hcovered, hmixes]

/-- the frame that `o` pushed stands in the stack at its height -/
def Kept (src : Source) (sc : Scan) (e : Emphasis) (o : Node) (ns : List Node) (fs : List Frame) : Prop :=
  ∃ base : List Frame, base.length = sc.frames.length ∧ base.any Frame.isOuter = sc.frames.any Frame.isOuter ∧
    frameOver src sc e o ns :: base <:+ fs

theorem Kept.step {at' : Scan} (h : Kept src sc e o ns at'.frames)
    (hheight : sc.frames.length < (at'.step src n).1.frames.length) :
    Kept src sc e o (ns ++ [n]) (at'.step src n).1.frames := by
  obtain ⟨base, hlen, houter, hbase⟩ := h
  rcases frames_step src at' n with ⟨x, hx, hframes⟩ | ⟨hx, ⟨resume?, hframes⟩ | hframes⟩
  · rw [hframes, Frame.pushed]
    cases hm : x.merges with
    | false =>
      have hskip : mixes e n = false := by simp [mixes, hx, hm]
      refine ⟨base, hlen, houter, ?_⟩
      rw [frameOver_skip hskip]
      exact hbase.trans (List.suffix_cons _ _)
    | true =>
      refine ⟨Frame.note base x, (Frame.length_note _ _).trans hlen, (Frame.any_isOuter_note _ _).trans houter, ?_⟩
      have hnote := Frame.note_suffix hbase x
      rw [houter, ← frameOver_mix hx hm] at hnote
      exact hnote.trans (List.suffix_cons _ _)
  · have hskip : mixes e n = false := by rw [mixes, hx]
    refine ⟨base, hlen, houter, ?_⟩
    rw [frameOver_skip hskip, hframes]
    exact hbase.trans (List.suffix_cons _ _)
  · have hskip : mixes e n = false := by rw [mixes, hx]
    refine ⟨base, hlen, houter, ?_⟩
    rw [frameOver_skip hskip]
    -- what is taken off lies above the frame, since the stack stays higher
    apply List.suffix_of_suffix_length_le hbase hframes
    rw [List.length_cons, hlen]
    exact hheight

/-- **The frame of an emphasis stays as it was pushed**, but for noting what opens inside if it is the outer one. -/
theorem kept_after (ho : Emphasis.ofOpen? o.kind = some e)
    (hstays : ∀ ms, ms <+: ns → sc.frames.length < (sc.after src (o :: ms)).frames.length) :
    Kept src sc e o ns (sc.after src (o :: ns)).frames := by
  induction ns using List.reverseRecOn with
  | nil =>
    have hframes : (sc.after src [o]).frames =
        Frame.pushed e (markerOf o e.defaultMarker.toList) (sc.contentStart? src e o) sc.frames := by
      rw [← frames_openEmphasis, ← step_of_open ho]
      rfl
    refine ⟨if e.merges then Frame.note sc.frames e else sc.frames, ?_, ?_, ?_⟩
    · split_ifs
      · exact Frame.length_note _ _
      · rfl
    · split_ifs
      · exact Frame.any_isOuter_note _ _
      · rfl
    · rw [hframes, frameOver, List.any_nil, Bool.and_false]
      exact List.suffix_refl _
  | append_singleton ns n ih =>
    have hkept := ih fun ms hms => hstays ms (hms.trans (List.prefix_append _ _))
    have hheight := hstays (ns ++ [n]) (List.prefix_refl _)
    rw [← List.cons_append, after_snoc] at hheight ⊢
    exact hkept.step hheight

/-- a closing token that takes the stack back to where `o` found it closes the frame of `o` -/
theorem Pairs.dropWhile (h : Pairs src sc e o inside c) :
    ((sc.after src (o :: inside)).frames.dropWhile fun f => !f.isOpen e) = frameOver src sc e o inside ::
      ((sc.after src (o :: inside)).closeEmphasis src c e).1.frames := by
  obtain ⟨base, hlen, -, hbase⟩ := kept_after h.opens h.stays
  have hheight := h.stays inside (List.prefix_refl _)
  have hmeets := h.meets
  rw [← List.cons_append, after_snoc, step_of_close h.closes] at hmeets
  rcases frames_closeEmphasis src (sc.after src (o :: inside)) c e with ⟨hframes, -⟩ | ⟨f, -, hdrop⟩
  · rw [hframes] at hmeets
    omega
  · have hsuffix := List.dropWhile_suffix (fun f => !Frame.isOpen e f) (l := (sc.after src (o :: inside)).frames)
    rw [hdrop] at hsuffix ⊢
    -- of two ends of one stack with equal heights
    have hends : f :: ((sc.after src (o :: inside)).closeEmphasis src c e).1.frames =
        frameOver src sc e o inside :: base := by
      apply List.IsSuffix.eq_of_length (List.suffix_of_suffix_length_le hsuffix hbase ?_)
      · simp only [List.length_cons, hmeets, hlen]
      · simp only [List.length_cons, hmeets, hlen, le_refl]
    rw [List.cons.injEq] at hends
    rw [hends.1]

/-! ## What is styled -/

/-- kind of the content of an emphasis in which the tokens `inside` stand -/
def kindOver (e : Emphasis) (inside : List Node) : Kind :=
  match e with
  | .strong => if ∃ n ∈ inside, n.kind = .emOpen then .boldItalic else .bold
  | .em => if ∃ n ∈ inside, n.kind = .strongOpen then .boldItalic else .italic
  | .strike => .strikethrough

/-- the styled range of an emphasis: there is none if an outer one has it covered, if a marker was not found, or if no
content is between them -/
def styledOver (covered : Bool) (start? stop? : Option Nat) (kind : Kind) : List Range :=
  match start?, stop? with
  | some start, some stop => if covered = false ∧ start < stop then [.styled start stop kind] else []
  | _, _ => []

theorem mixes_strong (n : Node) : mixes .strong n = true ↔ n.kind = .emOpen := by
  unfold mixes Emphasis.ofOpen?
  cases hk : n.kind <;> simp [Emphasis.merges]

theorem mixes_em (n : Node) : mixes .em n = true ↔ n.kind = .strongOpen := by
  unfold mixes Emphasis.ofOpen?
  cases hk : n.kind <;> simp [Emphasis.merges]

theorem styledKind_any (e : Emphasis) (inside : List Node) :
    e.styledKind (inside.any (mixes e)) = kindOver e inside := by
  cases e with
  | strong =>
    have hany : (∃ n ∈ inside, n.kind = .emOpen) ↔ inside.any (mixes .strong) = true := by
      simp only [List.any_eq_true, mixes_strong]
    simp only [kindOver, hany]
    cases inside.any (mixes .strong) <;> rfl
  | em =>
    have hany : (∃ n ∈ inside, n.kind = .strongOpen) ↔ inside.any (mixes .em) = true := by
      simp only [List.any_eq_true, mixes_em]
    simp only [kindOver, hany]
    cases inside.any (mixes .em) <;> rfl
  | strike => rfl

theorem filter_hide (i j : Nat) : (hide i j).filter (·.kind.isStyled) = [] := by
  unfold hide
  split_ifs <;> rfl

theorem filter_style {i j : Nat} {k : Kind} (hk : k ≠ .hide) :
    (style (.styled i j k)).filter (·.kind.isStyled) = style (.styled i j k) := by
  have hstyled : (Range.styled i j k).kind.isStyled = true := by simpa [Range.styled, Kind.isStyled] using hk
  unfold style
  split_ifs <;> simp [hstyled]

theorem styledOver_congr {covered : Bool} {k k' : Kind} (h : covered = false → k = k') (start? stop? : Option Nat) :
    styledOver covered start? stop? k = styledOver covered start? stop? k' := by
  cases covered with
  | false => rw [h rfl]
  | true => cases start? <;> cases stop? <;> rfl

/-- what a closing token styles, by the frame that it closes -/
theorem styled_closeEmphasis {x : Emphasis} {marker : List Char} {start? : Option Nat} {mixed suppressed : Bool}
    {fs : List Frame}
    (h : (sc.frames.dropWhile fun f => !f.isOpen e) = .emphasis x marker start? mixed suppressed :: fs) :
    (sc.closeEmphasis src c e).2.filter (·.kind.isStyled) =
      styledOver suppressed start? (sc.locateClose? src c (markerOf c marker)) (e.styledKind mixed) := by
  have hkind := (styledKind_styled e mixed).2
  simp only [closeEmphasis, h, styledOver]
  cases sc.locateClose? src c (markerOf c marker) with
  | none => cases start? <;> rfl
  | some stop =>
    cases start? with
    | none => simp only [List.nil_append, filter_hide]
    | some start =>
      cases suppressed with
      | true => simp [filter_hide]
      | false =>
        simp only [Bool.false_eq_true, if_false, List.filter_append, filter_hide, List.append_nil, true_and]
        exact filter_style hkind

/-- **A pair is styled** as its own markers and the tokens between them call for. -/
theorem Pairs.styled (h : Pairs src sc e o inside c) :
    ((sc.after src (o :: inside)).step src c).2.filter (·.kind.isStyled) =
      styledOver (e.merges && sc.frames.any Frame.isOuter) (sc.contentStart? src e o)
        ((sc.after src (o :: inside)).contentStop? src e o c) (kindOver e inside) := by
  rw [step_of_close h.closes, styled_closeEmphasis h.dropWhile, contentStop?]
  apply styledOver_congr
  intro hcovered
  rw [← styledKind_any]
  cases he : e.merges with
  | false =>
    cases e with
    | strike => rfl
    | _ => simp [Emphasis.merges] at he
  | true =>
    have houter : sc.frames.any Frame.isOuter = false := by rwa [he, Bool.true_and] at hcovered
    rw [houter, Bool.not_false, Bool.true_and, Bool.true_and]

/-! ## Every frame has been pushed -/

/-- a token opened an emphasis over so many frames, and there have been more of them since -/
def OpenedOver (src : Source) (sc : Scan) (e : Emphasis) (height : Nat) (ns : List Node) : Prop :=
  ∃ before o inside, ns = before ++ o :: inside ∧ Emphasis.ofOpen? o.kind = some e ∧
    (sc.after src before).frames.length = height ∧
    ∀ ms, ms <+: inside → height < ((sc.after src before).after src (o :: ms)).frames.length

/-- it stays so over a token that does not take the frame away -/
theorem OpenedOver.snoc {height : Nat} (h : OpenedOver src sc e height ns)
    (hheight : height < (sc.after src (ns ++ [n])).frames.length) : OpenedOver src sc e height (ns ++ [n]) := by
  obtain ⟨before, o, inside, rfl, ho, hbefore, hstays⟩ := h
  refine ⟨before, o, inside ++ [n], by simp, ho, hbefore, ?_⟩
  intro ms hms
  rcases List.prefix_concat_iff.1 hms with rfl | hms
  · rw [← after_append]
    simpa using hheight
  · exact hstays ms hms

/-- **A frame that an emphasis pushed has its token**, and has been in the stack since. -/
theorem exists_opener {f : Frame} {base : List Frame} (hstart : sc.frames = [])
    (hbase : f :: base <:+ (sc.after src ns).frames) (hf : f.isOpen e = true) :
    OpenedOver src sc e base.length ns := by
  induction ns using List.reverseRecOn generalizing f base with
  | nil =>
    have hnil : f :: base <:+ [] := hstart ▸ hbase
    simp at hnil
  | append_singleton ns n ih =>
    have hheight : base.length < (sc.after src (ns ++ [n])).frames.length := hbase.length_le
    rw [after_snoc] at hbase
    rcases frames_step src (sc.after src ns) n with ⟨x, hx, hframes⟩ | ⟨-, ⟨resume?, hframes⟩ | hframes⟩
    · rw [hframes, Frame.pushed] at hbase
      rcases List.suffix_cons_iff.1 hbase with hnew | hold
      · -- the frame is the one that `n` pushed
        rw [List.cons.injEq] at hnew
        obtain ⟨rfl, rfl⟩ := hnew
        have hxe : x = e := by simpa [Frame.isOpen] using hf
        have hlen : (sc.after src ns).frames.length =
            (if x.merges then Frame.note (sc.after src ns).frames x else (sc.after src ns).frames).length := by
          split_ifs
          · exact (Frame.length_note _ _).symm
          · rfl
        refine ⟨ns, n, [], rfl, hxe ▸ hx, hlen, ?_⟩
        intro ms hms
        rw [List.prefix_nil.1 hms, ← after_append]
        exact hheight
      · split_ifs at hold
        · obtain ⟨f', base', hbase', hlen, hopen⟩ := Frame.exists_of_note_suffix hold
          rw [← hlen] at hheight ⊢
          exact (ih hbase' ((hopen e).trans hf)).snoc hheight
        · exact (ih hold hf).snoc hheight
    · rw [hframes] at hbase
      rcases List.suffix_cons_iff.1 hbase with hlink | hold
      · rw [List.cons.injEq] at hlink
        rw [hlink.1] at hf
        simp [Frame.isOpen] at hf
      · exact (ih hold hf).snoc hheight
    · exact (ih (hbase.trans hframes) hf).snoc hheight

/-- a closing token for which some frame is open has its opening token -/
theorem exists_pair (hstart : sc.frames = []) (hc : Emphasis.ofClose? c.kind = some e)
    (hopen : (sc.after src ns).frames.any (·.isOpen e) = true) :
    ∃ before o inside, ns = before ++ o :: inside ∧ Pairs src (sc.after src before) e o inside c := by
  rcases frames_closeEmphasis src (sc.after src ns) c e with ⟨-, hnone⟩ | ⟨f, hf, hdrop⟩
  · rw [hopen] at hnone
    simp at hnone
  · have hsuffix := List.dropWhile_suffix (fun f => !Frame.isOpen e f) (l := (sc.after src ns).frames)
    rw [hdrop] at hsuffix
    obtain ⟨before, o, inside, rfl, ho, hbefore, hstays⟩ := exists_opener hstart hsuffix hf
    refine ⟨before, o, inside, rfl, ho, ?_, hc, ?_⟩
    · rw [hbefore]
      exact hstays
    · rw [hbefore, ← List.cons_append, after_snoc, step_of_close hc, ← after_append]

end Scan

/-! ## The rule -/

/-- how emphasis nests in a stream `ns` that is read from `sc` on -/
structure Nests (src : Source) (sc : Scan) (ns : List Node) : Prop where
  /-- at most one frame is outer -/
  one : (sc.after src ns).frames.countP Frame.isOuter ≤ 1
  /-- every suppressed frame lies above it -/
  above : ∀ above f below, (sc.after src ns).frames = above ++ f :: below → f.isSuppressed = true →
    ∃ g ∈ below, g.isOuter = true
  /-- a closing token for which some frame is open forms a pair with a token of the stream -/
  pairs : ∀ e c, Emphasis.ofClose? c.kind = some e → (sc.after src ns).frames.any (·.isOpen e) = true →
    ∃ before o inside, ns = before ++ o :: inside ∧ Scan.Pairs src (sc.after src before) e o inside c
  /-- a pair is styled by its own markers and what opens between them; only strong and em can be covered, by a frame
  that was outer when the pair opened -/
  styled : ∀ before e o inside c, ns = before ++ o :: inside → Scan.Pairs src (sc.after src before) e o inside c →
    ((sc.after src ns).step src c).2.filter (·.kind.isStyled) =
      Scan.styledOver (e.merges && (sc.after src before).frames.any Frame.isOuter)
        ((sc.after src before).contentStart? src e o) ((sc.after src ns).contentStop? src e o c)
        (Scan.kindOver e inside)

/-- **Emphasis nests**, in every stream of tokens. -/
theorem emphasis_nests (src : Source) (span? : Option LineSpan) (ns : List Node) :
    Nests src (Scan.start src span?) ns := by
  have hstart : Frame.Layered (Scan.start src span?).frames := trivial
  have hlayered : Frame.Layered ((Scan.start src span?).after src ns).frames := Scan.after_layered hstart ns
  refine ⟨hlayered.countP_le_one, ?_, ?_, ?_⟩
  · intro above f below hframes hf
    rw [hframes] at hlayered
    exact hlayered.above hf
  · intro e c hc hopen
    exact Scan.exists_pair rfl hc hopen
  · intro before e o inside c hns hpair
    rw [hns, Scan.after_append]
    exact hpair.styled

/-- a crossed stream on the text `**a*b**`: the strong that closes discards the em inside it, which makes it
bold-italic -/
theorem emphasis_nests_crossed :
    let src := Source.ofText "**a*b**".toList
    let line := some (LineSpan.line 0)
    let inside : List Node := [⟨.text, line, "", "", none, some "a", []⟩, ⟨.emOpen, line, "*", "em", none, none, []⟩,
      ⟨.text, line, "", "", none, some "b", []⟩]
    let o : Node := ⟨.strongOpen, line, "**", "strong", none, none, []⟩
    let c : Node := ⟨.strongClose, line, "**", "strong", none, none, []⟩
    Scan.Pairs src (Scan.start src line) .strong o inside c ∧
      (((Scan.start src line).after src (o :: inside)).step src c).2.filter (·.kind.isStyled) =
        [.styled 2 5 .boldItalic] := by
  intro src line inside o c
  have hstays : ∀ ns ∈ inside.inits, (Scan.start src line).frames.length <
      ((Scan.start src line).after src (o :: ns)).frames.length := by decide
  have hpair : Scan.Pairs src (Scan.start src line) .strong o inside c :=
    ⟨rfl, fun ns hns => hstays ns ((List.mem_inits _ _).2 hns), rfl, by decide⟩
  refine ⟨hpair, ?_⟩
  rw [(emphasis_nests src line (o :: inside)).styled [] .strong o inside c rfl hpair]
  decide

end MarkVeil.Decoration
