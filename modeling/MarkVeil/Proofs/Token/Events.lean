/-
Well-nested events.

Events are well nested if starts and stops pair up and no block starts inside an inline element. `nests` checks this
with a stack of the elements that are open, and `Nested` is the grammar of what it accepts (`nested_of_wellNested`).
The events of every document are well nested (`events_wellNested`).
-/
import Mathlib.Tactic
import MarkVeil.Markdown.Event

namespace MarkVeil.Markdown

open MarkVeil.Text

/-- where blocks and inline elements stand, or inline elements only -/
inductive Level where
  | block
  | inline
  deriving DecidableEq, Repr

/-- what stands in an element that stands at a level itself; what has no tokens makes no difference -/
def Tag.inside? (l : Level) : Tag → Option Level
  | .stress _ | .link _ | .image => some .inline
  | .other => some l
  | _ => if l = .block then some .block else none

/-- neither the start nor the stop of an element, nor a block -/
def Event.isLeaf : Event → Bool
  | .start _ | .stop | .rule => false
  | _ => true

/-- starts and stops pair up, and blocks are in blocks; `outer` are the levels around this one, innermost first -/
def nests (l : Level) (outer : List Level) : List (Event × Extent) → Bool
  | [] => outer.isEmpty
  | (.start tag, _) :: es =>
    match tag.inside? l with
    | some inner => nests inner (l :: outer) es
    | none => false
  | (.stop, _) :: es =>
    match outer with
    | [] => false
    | m :: outer => nests m outer es
  | (.rule, _) :: es => l = .block && nests l outer es
  | _ :: es => nests l outer es

def WellNested (es : List (Event × Extent)) : Prop := nests .block [] es = true

instance (es : List (Event × Extent)) : Decidable (WellNested es) := inferInstanceAs (Decidable (_ = _))

/-- the events of elements side by side, each with what is in it -/
inductive Nested : Level → List (Event × Extent) → Prop
  | nil {l : Level} : Nested l []
  | leaf {l : Level} {x : Event × Extent} {es : List (Event × Extent)} (h : x.1.isLeaf = true) (rest : Nested l es) :
      Nested l (x :: es)
  | rule {e : Extent} {es : List (Event × Extent)} (rest : Nested .block es) : Nested .block ((.rule, e) :: es)
  | element {l inner : Level} {tag : Tag} {e e' : Extent} {body es : List (Event × Extent)}
      (h : tag.inside? l = some inner) (inside : Nested inner body) (rest : Nested l es) :
      Nested l ((.start tag, e) :: (body ++ (.stop, e') :: es))

variable {l m : Level} {outer : List Level} {es : List (Event × Extent)} {x : Event × Extent}

/-! ## The grammar of well-nested events -/

/-- accepted events go up to the stop of the element they are in, and on behind it -/
def Ends (l : Level) (es : List (Event × Extent)) : List Level → Prop
  | [] => Nested l es
  | m :: outer => ∃ body e rest, es = body ++ (.stop, e) :: rest ∧ Nested l body ∧ nests m outer rest = true

/-- what stands in front of the rest stands in front of the stop, too -/
theorem Ends.behind (front : List (Event × Extent)) (hfront : ∀ {rest}, Nested l rest → Nested l (front ++ rest))
    (h : Ends l es outer) : Ends l (front ++ es) outer := by
  cases outer with
  | nil => exact hfront h
  | cons m outer =>
    obtain ⟨body, e, rest, rfl, hbody, hrest⟩ := h
    exact ⟨front ++ body, e, rest, (List.append_assoc _ _ _).symm, hfront hbody, hrest⟩

/-- an element with what follows it -/
theorem Ends.element {inner : Level} {tag : Tag} {e e' : Extent} {body rest : List (Event × Extent)}
    (htag : tag.inside? l = some inner) (hbody : Nested inner body) (h : Ends l rest outer) :
    Ends l ((.start tag, e) :: (body ++ (.stop, e') :: rest)) outer := by
  have hfront : ∀ {es}, Nested l es → Nested l ((.start tag, e) :: (body ++ [(.stop, e')]) ++ es) := by
    intro es hes
    simpa using Nested.element htag hbody hes
  simpa using h.behind _ hfront

theorem ends_of_nests (n : Nat) (hlen : es.length ≤ n) (h : nests l outer es = true) : Ends l es outer := by
  induction n generalizing es l outer with
  | zero =>
    obtain rfl := List.eq_nil_of_length_eq_zero (Nat.le_zero.1 hlen)
    cases outer with
    | nil => exact .nil
    | cons m outer => exact absurd h Bool.false_ne_true
  | succ n ih =>
    cases es with
    | nil =>
      cases outer with
      | nil => exact .nil
      | cons m outer => exact absurd h Bool.false_ne_true
    | cons x es =>
      obtain ⟨ev, e⟩ := x
      have hshort := Nat.le_of_succ_le_succ hlen
      cases ev with
      | start tag =>
        rw [nests] at h
        cases hinner : tag.inside? l with
        | none => simp [hinner] at h
        | some inner =>
          rw [hinner] at h
          -- the element ends somewhere, and what follows it is shorter
          obtain ⟨body, e', rest, rfl, hbody, hrest⟩ := ih hshort h
          have hrestLen : rest.length ≤ n := by
            simp only [List.length_append, List.length_cons] at hshort
            omega
          exact .element hinner hbody (ih hrestLen hrest)
      | stop =>
        cases outer with
        | nil => exact absurd h Bool.false_ne_true
        | cons m outer => exact ⟨[], e, es, rfl, .nil, h⟩
      | rule =>
        obtain ⟨hl, h⟩ := Bool.and_eq_true_iff.1 h
        obtain rfl := of_decide_eq_true hl
        exact (ih hshort h).behind [(.rule, e)] .rule
      | _ => exact (ih hshort h).behind [(_, e)] (.leaf rfl)

theorem nested_of_wellNested (h : WellNested es) : Nested .block es := ends_of_nests es.length le_rfl h

/-! ## The events of a document -/

theorem nests_enclose {tag : Tag} {e : Extent} {body rest : List (Event × Extent)} (htag : tag.inside? l = some m)
    (hbody : ∀ outer rest, nests m outer (body ++ rest) = nests m outer rest) :
    nests l outer (enclose tag e body ++ rest) = nests l outer rest := by
  rw [enclose, List.cons_append, nests, htag, List.append_assoc]
  exact hbody (l :: outer) _

mutual

theorem nests_inline (s : List Char) : ∀ (i : Inline) (l : Level) (outer : List Level) (rest : List (Event × Extent)),
    nests l outer (i.events s ++ rest) = nests l outer rest
  | .text _, _, _, _ => rfl
  | .code _ _, _, _, _ => rfl
  | .html _ _, _, _, _ => rfl
  | .softBreak _, _, _, _ => rfl
  | .hardBreak _, _, _, _ => rfl
  | .stress _ _ children, _, _, _ => nests_enclose rfl (nests_inlines s children .inline)
  | .link _ _ children, _, _, _ => nests_enclose rfl (nests_inlines s children .inline)
  | .image _ children, _, _, _ => nests_enclose rfl (nests_inlines s children .inline)

theorem nests_inlines (s : List Char) :
    ∀ (is : List Inline) (l : Level) (outer : List Level) (rest : List (Event × Extent)),
      nests l outer (Inline.eventsAll s is ++ rest) = nests l outer rest
  | [], _, _, _ => rfl
  | i :: is, l, outer, rest => by
    rw [Inline.eventsAll, List.append_assoc, nests_inline s i, nests_inlines s is]

end

theorem Container.inside?_tag (c : Container) : c.tag.inside? .block = some .block := by
  cases c with
  | list delimiter tight =>
    rw [Container.tag]
    split_ifs <;> rfl
  | _ => rfl

mutual

theorem nests_block (s : List Char) : ∀ (b : ReadBlock) (bare : Bool) (outer : List Level)
    (rest : List (Event × Extent)), nests .block outer (Block.events s bare b ++ rest) = nests .block outer rest
  | .paragraph e content, bare, outer, rest => by
    rw [Block.events]
    cases bare with
    | true => exact nests_inlines s content .block outer rest
    | false => exact nests_enclose rfl (nests_inlines s content .block)
  | .heading _ _ content, _, _, _ => nests_enclose rfl (nests_inlines s content .block)
  | .rule _, _, _, _ => rfl
  | .fence _ _ body _, _, _, _ => nests_enclose rfl fun _ _ => by cases body <;> rfl
  | .indented _ body, _, _, _ => nests_enclose rfl fun _ _ => by cases body <;> rfl
  | .html _ body, _, _, _ => nests_enclose rfl fun _ _ => by cases body <;> rfl
  | .within _ c blocks, bare, _, _ => nests_enclose c.inside?_tag (nests_blocks s blocks (isBare bare c))

theorem nests_blocks (s : List Char) : ∀ (bs : List ReadBlock) (bare : Bool) (outer : List Level)
    (rest : List (Event × Extent)), nests .block outer (Block.eventsAll s bare bs ++ rest) = nests .block outer rest
  | [], _, _, _ => rfl
  | b :: bs, bare, outer, rest => by
    rw [Block.eventsAll, List.append_assoc, nests_block s b, nests_blocks s bs]

end

/-- **The events of every document are well nested.** -/
theorem events_wellNested (s : List Char) : WellNested (Document.events s) := by
  have h := nests_blocks s (Document.ofText s) false [] []
  rw [List.append_nil] at h
  exact h

end MarkVeil.Markdown
