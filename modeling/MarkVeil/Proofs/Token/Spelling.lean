/-
How the tokens of a document are spelled.

Whatever events a reader reports, in whatever order and with whatever extents, an emphasis token carries one or two
copies of one delimiter and a fence a run of backticks or tildes, or none (`ofEvents_spelled`). Each step of the builder
keeps this of the tokens it has written, and of those that it will write for the elements that wait.
-/
import MarkVeil.Marker.Emphasis
import MarkVeil.Marker.CodeSpan
import MarkVeil.Proofs.Token.BlockEvents
import MarkVeil.Proofs.Token.Preorder

namespace MarkVeil.Token

open MarkVeil.Text
open MarkVeil.Markdown (Event Tag)
open MarkVeil.Marker (Emphasis)

/-- one or two copies of a delimiter -/
def IsDelimiter (m : List Char) : Prop :=
  ∃ c n, (c = '*' ∨ c = '_' ∨ c = '~') ∧ (n = 1 ∨ n = 2) ∧ m = List.replicate n c

/-- a run of backticks or of tildes -/
def IsFenceRun (m : List Char) : Prop := ∃ c n, (c = '`' ∨ c = '~') ∧ 0 < n ∧ m = List.replicate n c

/-- the markers of emphasis and fences are as Markdown has them -/
structure Spelled (n : Node) : Prop where
  stress : (Emphasis.ofOpen? n.kind).isSome ∨ (Emphasis.ofClose? n.kind).isSome → IsDelimiter n.markup.toList
  fence : n.kind = .fence → n.markup = "" ∨ IsFenceRun n.markup.toList

/-- a tree of tokens so spelled -/
def AllSpelled (n : Node) : Prop := ∀ m ∈ n.preorder, Spelled m

variable {src : Source} {n m o c : Node} {b : Builder} {p : Pending} {ps qs : List Pending} {tag : Tag} {e : Extent}

theorem allSpelled_iff : AllSpelled n ↔ Spelled n ∧ ∀ c ∈ n.children, AllSpelled c := forall_mem_preorder

theorem AllSpelled.leaf (h : Spelled n) (hn : n.children = []) : AllSpelled n :=
  allSpelled_iff.2 ⟨h, by simp [hn]⟩

/-- only its kind and its marker say how a token is spelled -/
theorem Spelled.change (h : Spelled n) (hkind : m.kind = n.kind) (hmarkup : m.markup = n.markup) : Spelled m :=
  ⟨by rw [hkind, hmarkup]; exact h.stress, by rw [hkind, hmarkup]; exact h.fence⟩

/-- a token with one more below it -/
theorem AllSpelled.push (h : AllSpelled n) (hc : AllSpelled c) (hkind : m.kind = n.kind) (hmarkup : m.markup = n.markup)
    (hchildren : m.children = n.children ++ [c]) : AllSpelled m := by
  obtain ⟨hself, hbelow⟩ := allSpelled_iff.1 h
  refine allSpelled_iff.2 ⟨hself.change hkind hmarkup, ?_⟩
  rw [hchildren]
  exact List.forall_mem_append.2 ⟨hbelow, List.forall_mem_singleton.2 hc⟩

/-- neither an emphasis nor a fence -/
def IsPlain (k : Kind) : Prop := Emphasis.ofOpen? k = none ∧ Emphasis.ofClose? k = none ∧ k ≠ .fence

instance (k : Kind) : Decidable (IsPlain k) := inferInstanceAs (Decidable (_ ∧ _))

/-- tokens of other kinds may carry any marker -/
theorem spelled_plain (h : IsPlain n.kind) : Spelled n := ⟨by simp [h.1, h.2.1], fun hf => absurd hf h.2.2⟩

/-! ## Markers -/

theorem stressMarker_delimiter {limit : Nat} {plain : Char} (offset : Nat) (hl : limit = 1 ∨ limit = 2)
    (hp : plain = '*' ∨ plain = '_' ∨ plain = '~') : IsDelimiter (stressMarker src offset limit plain) := by
  unfold stressMarker
  split
  next c rest hrest =>
    split_ifs with hc
    · refine ⟨c, runLenAt src offset c limit, hc, ?_, rfl⟩
      have hrun : 0 < countRun c (textAfter src offset) := by
        rw [hrest]
        simp [countRun, runLen]
      unfold runLenAt
      omega
    · exact ⟨plain, limit, hp, hl, rfl⟩
  next => exact ⟨plain, limit, hp, hl, rfl⟩

theorem fenceMarkup_run (src : Source) (offset : Nat) :
    fenceMarkup src offset = [] ∨ IsFenceRun (fenceMarkup src offset) := by
  unfold fenceMarkup
  simp only
  split
  next c rest hrest =>
    split_ifs with hc
    · exact .inr ⟨c, _, hc, by rw [hrest]; simp [countRun, runLen], rfl⟩
    · exact .inr ⟨'`', 3, Or.inl rfl, by decide, rfl⟩
  next => exact .inl rfl

/-- the run that a fence is read again with: its own, or else the default -/
def fenceMarker (src : Source) (offset : Nat) : List Char :=
  if fenceMarkup src offset = [] then Marker.Fence.defaultMarker.toList else fenceMarkup src offset

theorem fenceMarker_run (src : Source) (offset : Nat) : IsFenceRun (fenceMarker src offset) := by
  unfold fenceMarker
  split_ifs with h
  · exact ⟨'`', 3, Or.inl rfl, by decide, rfl⟩
  · exact (fenceMarkup_run src offset).resolve_left h

/-! ## Tokens of events -/

theorem leafToken_spelled {x : Event × Extent} (h : leafToken? src x = some n) : AllSpelled n := by
  obtain ⟨ev, e⟩ := x
  cases ev <;> simp only [leafToken?, Option.some.injEq, reduceCtorEq] at h <;> subst h <;>
    exact .leaf (spelled_plain ⟨rfl, rfl, Kind.noConfusion⟩) rfl

theorem inlineTokens_spelled (h : inlineTokens? src e tag = some (o, c)) : AllSpelled o ∧ AllSpelled c := by
  cases tag <;> simp only [inlineTokens?, Option.some.injEq, reduceCtorEq] at h <;> obtain ⟨rfl, rfl⟩ := Prod.mk.inj h
  case stress kind =>
    have hm : IsDelimiter (stressMarker src e.start (stressShape kind).2.2.2.1 (stressShape kind).2.2.2.2) :=
      stressMarker_delimiter e.start (by cases kind <;> decide) (by cases kind <;> decide)
    rw [← String.toList_ofList (l := stressMarker _ _ _ _)] at hm
    have hkinds : (stressShape kind).1 ≠ .fence ∧ (stressShape kind).2.1 ≠ .fence := by cases kind <;> decide
    exact ⟨.leaf ⟨fun _ => hm, fun hf => absurd hf hkinds.1⟩ rfl, .leaf ⟨fun _ => hm, fun hf => absurd hf hkinds.2⟩ rfl⟩
  case link form => exact ⟨.leaf (spelled_plain ⟨rfl, rfl, Kind.noConfusion⟩) rfl, .leaf (spelled_plain ⟨rfl, rfl, Kind.noConfusion⟩) rfl⟩

theorem literalToken_spelled (h : literalToken? src e tag = some n) : AllSpelled n := by
  cases tag <;> simp only [literalToken?, Option.some.injEq, reduceCtorEq] at h <;> subst h
  case fence info =>
    refine .leaf ⟨by simp [Emphasis.ofOpen?, Emphasis.ofClose?], fun _ => ?_⟩ rfl
    exact (fenceMarkup_run src e.start).imp (fun h => congrArg String.ofList h) fun h => by rwa [String.toList_ofList]
  all_goals exact .leaf (spelled_plain ⟨rfl, rfl, Kind.noConfusion⟩) rfl

theorem blockShape_plain {opening closing : Kind} {name : String} {markup : List Char}
    (h : blockShape? src e tag = some (opening, closing, name, markup)) : IsPlain opening ∧ IsPlain closing := by
  cases tag <;> simp only [blockShape?, Option.some.injEq, Prod.mk.injEq, reduceCtorEq] at h <;>
    obtain ⟨rfl, rfl, -⟩ := h <;> decide

/-! ## Steps -/

/-- what waits writes a token that is so spelled -/
def Pending.Spelled (src : Source) (p : Pending) : Prop := ∀ n, p.token? src = some n → AllSpelled n

namespace Builder

/-- all tokens that are written or will be are so spelled -/
structure Spelled (src : Source) (b : Builder) : Prop where
  blocks : ∀ n ∈ b.blocks, AllSpelled n
  inline : ∀ n ∈ b.inline?, AllSpelled n
  pending : ∀ p ∈ b.pending, p.Spelled src

theorem spelled_intoImage (h : ∀ p ∈ ps, p.Spelled src) (hn : AllSpelled n) (hinto : intoImage? n ps = some qs) :
    ∀ p ∈ qs, p.Spelled src := by
  obtain ⟨front, m, rest, rfl, rfl⟩ := intoImage?_split hinto
  obtain ⟨hfront, himage⟩ := List.forall_mem_append.1 h
  obtain ⟨hm, hrest⟩ := List.forall_mem_cons.1 himage
  refine List.forall_mem_append.2 ⟨hfront, List.forall_mem_cons.2 ⟨?_, hrest⟩⟩
  rintro _ ⟨⟩
  exact (hm m rfl).push hn rfl rfl rfl

theorem Spelled.pushInline (h : b.Spelled src) (hn : AllSpelled n) (e : Extent) : (b.pushInline src n e).Spelled src := by
  rw [Builder.pushInline]
  split
  next hinto => exact ⟨h.blocks, h.inline, spelled_intoImage h.pending hn hinto⟩
  next =>
    refine ⟨h.blocks, ?_, h.pending⟩
    rintro _ ⟨⟩
    cases hc : b.inline? with
    | none =>
      -- the container is new
      have hempty : AllSpelled { kind := .inline } := .leaf (spelled_plain ⟨rfl, rfl, Kind.noConfusion⟩) rfl
      exact hempty.push hn rfl rfl rfl
    | some c => exact (h.inline c hc).push hn rfl rfl rfl

theorem Spelled.flush (h : b.Spelled src) : b.flush.Spelled src :=
  ⟨List.forall_mem_append.2 ⟨fun n hn => h.inline n (Option.mem_toList.1 hn), h.blocks⟩,
    by simp [Builder.flush], h.pending⟩

theorem Spelled.append (h : b.Spelled src) (hn : AllSpelled n) : Spelled src { b with blocks := n :: b.blocks } :=
  ⟨List.forall_mem_cons.2 ⟨hn, h.blocks⟩, h.inline, h.pending⟩

theorem Spelled.pushBlock (h : b.Spelled src) (hn : AllSpelled n) : (b.pushBlock n).Spelled src := h.flush.append hn

theorem Spelled.await (h : b.Spelled src) (hp : p.Spelled src) : (b.await p).Spelled src :=
  ⟨h.blocks, h.inline, List.forall_mem_cons.2 ⟨hp, h.pending⟩⟩

theorem Spelled.block (h : b.Spelled src) {opening closing : Kind} {name : String} {markup : List Char}
    (hshape : blockShape? src e tag = some (opening, closing, name, markup)) : (b.start src tag e).Spelled src := by
  obtain ⟨hopen, hclose⟩ := blockShape_plain hshape
  rw [start_block hshape]
  refine (h.pushBlock (.leaf (spelled_plain hopen) rfl)).await ?_
  rintro _ ⟨⟩
  exact .leaf (spelled_plain hclose) rfl

theorem Spelled.literal (h : b.Spelled src) (hn : literalToken? src e tag = some n) : (b.start src tag e).Spelled src := by
  rw [start_literal hn]
  refine h.flush.await ?_
  rintro _ ⟨⟩
  exact literalToken_spelled hn

theorem Spelled.element (h : b.Spelled src) (hn : inlineTokens? src e tag = some (o, c)) :
    (b.start src tag e).Spelled src := by
  obtain ⟨p, -, -, htoken, hstart, -⟩ := start_inline hn
  obtain ⟨ho, hc⟩ := inlineTokens_spelled hn
  rw [hstart]
  refine (h.pushInline ho ⟨0, 0⟩).await fun n hp => ?_
  obtain rfl := Option.some.inj (htoken.symm.trans hp)
  exact hc

theorem Spelled.start (h : b.Spelled src) (tag : Tag) (e : Extent) : (b.start src tag e).Spelled src := by
  cases tag with
  | fence info => exact h.literal rfl
  | indented => exact h.literal rfl
  | html => exact h.literal rfl
  | stress kind => exact h.element rfl
  | link form => exact h.element rfl
  | image =>
    refine h.await ?_
    rintro _ ⟨⟩
    exact .leaf (spelled_plain ⟨rfl, rfl, Kind.noConfusion⟩) rfl
  | other =>
    refine h.await ?_
    rintro _ ⟨⟩
  | _ => exact h.block rfl

theorem Spelled.stop (h : b.Spelled src) : (b.stop src).Spelled src := by
  obtain ⟨blocks, inline?, pending⟩ := b
  obtain ⟨hblocks, hinline, hpending⟩ := h
  cases pending with
  | nil => exact ⟨hblocks, hinline, hpending⟩
  | cons p ps =>
    obtain ⟨hp, hps⟩ := List.forall_mem_cons.1 hpending
    have hrest : Spelled src ⟨blocks, inline?, ps⟩ := ⟨hblocks, hinline, hps⟩
    cases p with
    | block closing tag markup span => exact hrest.pushBlock (hp _ rfl)
    | inline closing tag markup content? e => exact hrest.pushInline (hp _ rfl) e
    | image n => exact hrest.pushInline (hp _ rfl) ⟨0, 0⟩
    | literal n => exact hrest.append (hp _ rfl)
    | ignored => exact hrest

theorem Spelled.addText (h : b.Spelled src) (t : List Char) (hn : AllSpelled n) (e : Extent) :
    (b.addText src t n e).Spelled src := by
  rw [Builder.addText]
  split
  next m ps hpending =>
    obtain ⟨hp, hps⟩ := List.forall_mem_cons.1 (hpending ▸ h.pending)
    refine ⟨h.blocks, h.inline, List.forall_mem_cons.2 ⟨?_, hps⟩⟩
    rintro _ ⟨⟩
    obtain ⟨hself, hbelow⟩ := allSpelled_iff.1 (hp m rfl)
    exact allSpelled_iff.2 ⟨hself.change rfl rfl, hbelow⟩
  next => exact h.pushInline hn e

/-- **Every step keeps the tokens so spelled.** -/
theorem Spelled.step (h : b.Spelled src) (x : Event × Extent) : (b.step src x).Spelled src := by
  obtain ⟨ev, e⟩ := x
  cases ev with
  | start tag => exact h.start tag e
  | stop => exact h.stop
  | text t => exact h.addText t (leafToken_spelled (x := (.text t, e)) rfl) e
  | html t => exact h.addText t (leafToken_spelled (x := (.html t, e)) rfl) e
  | code t => exact h.pushInline (leafToken_spelled (x := (.code t, e)) rfl) e
  | inlineHtml t => exact h.pushInline (leafToken_spelled (x := (.inlineHtml t, e)) rfl) e
  | softBreak => exact h.pushInline (leafToken_spelled (x := (.softBreak, e)) rfl) e
  | hardBreak => exact h.pushInline (leafToken_spelled (x := (.hardBreak, e)) rfl) e
  | rule => exact h.pushBlock (.leaf (spelled_plain ⟨rfl, rfl, Kind.noConfusion⟩) rfl)
  | other => exact h

theorem Spelled.run (h : b.Spelled src) (es : List (Event × Extent)) : (b.run src es).Spelled src := by
  induction es generalizing b with
  | nil => exact h
  | cons x es ih => exact ih (h.step x)

end Builder

/-- **The tokens of any events are spelled as Markdown has them.** -/
theorem ofEvents_spelled (src : Source) (es : List (Event × Extent)) : AllSpelled (ofEvents src es) := by
  have hempty : Builder.empty.Spelled src :=
    ⟨List.forall_mem_nil _, by simp [Builder.empty], List.forall_mem_nil _⟩
  refine allSpelled_iff.2 ⟨spelled_plain ⟨rfl, rfl, Kind.noConfusion⟩, fun c hc => ?_⟩
  exact (hempty.run es).flush.blocks c (List.mem_reverse.1 hc)

end MarkVeil.Token
