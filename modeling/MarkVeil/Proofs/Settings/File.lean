/-
Saved options are read back.

The text of options is a document of three lines, so it is read as the table of their names and values, and each value
gives back what it was written for (`ofText?_toText`).
-/
import MarkVeil.Proofs.Toml.Document
import MarkVeil.Settings.File

namespace MarkVeil.Settings

open MarkVeil.Decoration (Kind)
open MarkVeil.Editor (Options)
open MarkVeil.Toml

/-! ## Lines -/

def arrayLine (name : Key) (hne : name ≠ []) (hbare : name.all isKeyChar = true) (ss : List (List Char)) : Line where
  name
  text := writeArray (ss.map write)
  value := .array (ss.map .text)
  nonempty := hne
  bare := List.all_eq_true.1 hbare
  solid := by
    have hbracket : (writeArray (ss.map write)).head? = some '[' := by
      match ss with
      | [] => rfl
      | [s] => rfl
      | s :: s' :: ss => rfl
    rw [hbracket]
    intro c hc
    obtain rfl := Option.some.inj hc
    rfl
  reads rest := readValue?_array _ ss _

def booleanLine (name : Key) (hne : name ≠ []) (hbare : name.all isKeyChar = true) (b : Bool) : Line where
  name
  text := writeBoolean b
  value := .boolean b
  nonempty := hne
  bare := List.all_eq_true.1 hbare
  solid c hc := by
    cases b with
    | false | true =>
      obtain rfl := Option.some.inj hc
      rfl
  reads rest := readValue?_boolean _ b rest

def languagesLine (languages : List String) : Line :=
  arrayLine languagesKey.toList (by decide) (by decide) (languages.map String.toList)
def revealLine (reveal : Bool) : Line := booleanLine revealKey.toList (by decide) (by decide) reveal
def disabledLine (disabled : List Kind) : Line :=
  arrayLine disabledKey.toList (by decide) (by decide) (disabled.map fun k => k.name.toList)

def linesOf (o : Options) : List Line :=
  [languagesLine o.languages, revealLine o.revealSelectedLines, disabledLine o.disabledKinds]

theorem toText_eq (o : Options) : toText o = (linesOf o).flatMap Line.written := by
  simp [toText, linesOf, languagesLine, revealLine, disabledLine, Line.written, arrayLine, booleanLine,
    Function.comp_def]

/-! ## Values -/

/-- what each value was written for is decoded from all of them -/
theorem mapM_written {α β : Type} {decode? : β → Option α} {encode : α → β}
    (h : ∀ a, decode? (encode a) = some a) (as : List α) : (as.map encode).mapM decode? = some as := by
  induction as with
  | nil => rfl
  | cons a as ih => simp [h, ih]

theorem texts?_array (ss : List String) : texts? (.array ((ss.map String.toList).map .text)) = some ss := by
  rw [texts?, items?, Option.bind_some, List.map_map]
  refine mapM_written (fun s => ?_) ss
  rw [Function.comp_apply, text?, String.ofList_toList]

theorem kinds?_array (ks : List Kind) : kinds? (.array ((ks.map fun k => k.name.toList).map .text)) = some ks := by
  rw [kinds?, items?, Option.bind_some, List.map_map]
  refine mapM_written (fun k => ?_) ks
  rw [Function.comp_apply, kind?, String.ofList_toList, Kind.ofName?_name]

/-- **The text of options is read back as the same options**, whatever their texts hold. -/
theorem ofText?_toText (o : Options) : ofText? (toText o) = some o := by
  have hnames : ((linesOf o).map Line.name).Nodup := by
    have h : [languagesKey.toList, revealKey.toList, disabledKey.toList].Nodup := by decide
    exact h
  have hlanguages := texts?_array o.languages
  have hdisabled := kinds?_array o.disabledKinds
  rw [ofText?, toText_eq, readTable?_lines _ hnames, Option.bind_some]
  -- each name is looked up in the table of the three
  have hlookup : ∀ v₁ v₂ v₃ : Value,
      ofTable? [(languagesKey.toList, v₁), (revealKey.toList, v₂), (disabledKey.toList, v₃)] = (do
        let languages ← texts? v₁
        let reveal ← boolean? v₂
        let disabled ← kinds? v₃
        return ⟨languages, reveal, disabled⟩) := fun _ _ _ => rfl
  have htable := hlookup (.array ((o.languages.map String.toList).map .text)) (.boolean o.revealSelectedLines)
    (.array ((o.disabledKinds.map fun k => k.name.toList).map .text))
  rw [hlanguages, hdisabled] at htable
  exact htable

end MarkVeil.Settings
