/-
The settings that a table gives.

A setting is read off a value of its type (`HoldsTexts`, `HoldsBoolean`, `HoldsKinds`); one that is left out has its
default (`Gives`). No other name matters. Main results:
- `ofTable?_eq_some`: a table gives options exactly if every setting in it has its type;
- `ofTable?_eq_none`: it gives none exactly if one of them has another.
-/
import MarkVeil.Proofs.Settings.File

namespace MarkVeil.Settings

open MarkVeil.Decoration (Kind)
open MarkVeil.Editor (Options)
open MarkVeil.Toml

/-- the items of a value: those of an array, or the tables of an array of tables -/
inductive Lists : Value → List Value → Prop
  | array (vs : List Value) : Lists (.array vs) vs
  | tables (rows : List Entries) : Lists (.tables rows) (rows.map (.table .header))

/-- a value that names a kind: its name, or a table with its name for an empty array or table -/
inductive NamesKind : Value → Kind → Prop
  | text (k : Kind) : NamesKind (.text k.name.toList) k
  | table (form : Form) (k : Kind) (v : Value) (h : v = .array [] ∨ ∃ form', v = .table form' []) :
    NamesKind (.table form [(k.name.toList, v)]) k

def HoldsTexts (v : Value) (ss : List String) : Prop :=
  ∃ vs, Lists v vs ∧ List.Forall₂ (fun u s => u = .text s.toList) vs ss

def HoldsBoolean (v : Value) (b : Bool) : Prop := v = .boolean b

def HoldsKinds (v : Value) (ks : List Kind) : Prop := ∃ vs, Lists v vs ∧ List.Forall₂ NamesKind vs ks

variable {α β : Type} {v : Value} {vs : List Value} {s : String} {ss : List String} {b : Bool} {k : Kind}
  {ks : List Kind} {es : Entries} {o : Options}

/-! ## Values -/

theorem mapM_eq_some {f : α → Option β} {as : List α} {bs : List β} :
    as.mapM f = some bs ↔ List.Forall₂ (fun a b => f a = some b) as bs := by
  induction as generalizing bs with
  | nil => cases bs <;> simp
  | cons a as ih =>
    rw [List.mapM_cons]
    cases hf : f a with
    | none => cases bs <;> simp [hf]
    | some b =>
      cases hrest : as.mapM f with
      | none => cases bs <;> simp [hf, ← ih, hrest]
      | some rest => cases bs <;> simp [hf, ← ih, hrest]

theorem items?_eq_some : items? v = some vs ↔ Lists v vs := by
  constructor
  · intro h
    unfold items? at h
    split at h
    · exact Option.some.inj h ▸ .array _
    · exact Option.some.inj h ▸ .tables _
    · cases h
  · intro h
    cases h <;> rfl

theorem text?_eq_some : text? v = some s ↔ v = .text s.toList := by
  constructor
  · intro h
    unfold text? at h
    split at h
    · rw [← Option.some.inj h, String.toList_ofList]
    · cases h
  · rintro rfl
    rw [text?, String.ofList_toList]

theorem boolean?_eq_some : boolean? v = some b ↔ HoldsBoolean v b := by
  constructor
  · intro h
    unfold boolean? at h
    split at h
    · exact congrArg Value.boolean (Option.some.inj h)
    · cases h
  · rintro rfl
    rfl

theorem isVoid_iff : isVoid v = true ↔ v = .array [] ∨ ∃ form, v = .table form [] := by
  unfold isVoid
  split <;> simp_all

theorem kind?_eq_some : kind? v = some k ↔ NamesKind v k := by
  constructor
  · intro h
    unfold kind? at h
    split at h
    next t =>
      rw [← String.toList_ofList (l := t), Kind.ofName?_eq_some.1 h]
      exact .text k
    next form t u =>
      split_ifs at h with hvoid
      rw [← String.toList_ofList (l := t), Kind.ofName?_eq_some.1 h]
      exact .table form k u (isVoid_iff.1 hvoid)
    next => cases h
  · intro h
    cases h with
    | text => rw [kind?, String.ofList_toList, Kind.ofName?_name]
    | table form k v h => rw [kind?, if_pos (isVoid_iff.2 h), String.ofList_toList, Kind.ofName?_name]

theorem texts?_eq_some : texts? v = some ss ↔ HoldsTexts v ss := by
  simp only [texts?, Option.bind_eq_some_iff, items?_eq_some, mapM_eq_some, text?_eq_some, HoldsTexts]

theorem kinds?_eq_some : kinds? v = some ks ↔ HoldsKinds v ks := by
  simp only [kinds?, Option.bind_eq_some_iff, items?_eq_some, mapM_eq_some, kind?_eq_some, HoldsKinds]

theorem not_holdsKinds_of_unknown {name : List Char} (hlists : Lists v vs) (hname : .text name ∈ vs)
    (hunknown : ∀ k : Kind, name ≠ k.name.toList) (ks : List Kind) : ¬ HoldsKinds v ks := by
  rintro ⟨vs', hlists', hnames⟩
  obtain rfl : vs = vs' := Option.some.inj ((items?_eq_some.2 hlists).symm.trans (items?_eq_some.2 hlists'))
  obtain ⟨i, hi⟩ := List.get_of_mem hname
  have hkind : NamesKind (vs.get i) _ := hnames.get i.2 (hnames.length_eq ▸ i.2)
  rw [hi] at hkind
  cases hkind with
  | text => exact hunknown _ rfl

/-! ## Tables -/

/-- a table gives a setting: the one that its value holds, or the default if it is left out -/
def Gives (es : Entries) (name : String) (holds : Value → α → Prop) (default a : α) : Prop :=
  (∃ v, es.lookup name.toList = some v ∧ holds v a) ∨ es.lookup name.toList = none ∧ a = default

/-- a table has a value for a setting that holds nothing of its type -/
def Mistypes (es : Entries) (name : String) (holds : Value → α → Prop) : Prop :=
  ∃ v, es.lookup name.toList = some v ∧ ∀ a, ¬ holds v a

/-- a table gives options, each setting by its own name -/
structure GivesOptions (es : Entries) (o : Options) : Prop where
  languages : Gives es languagesKey HoldsTexts Options.default.languages o.languages
  reveal : Gives es revealKey HoldsBoolean Options.default.revealSelectedLines o.revealSelectedLines
  disabled : Gives es disabledKey HoldsKinds Options.default.disabledKinds o.disabledKinds

/-- a table mistypes one of the settings -/
def MistypesSome (es : Entries) : Prop :=
  Mistypes es languagesKey HoldsTexts ∨ Mistypes es revealKey HoldsBoolean ∨ Mistypes es disabledKey HoldsKinds

section

variable {name : String} {decode? : Value → Option α} {holds : Value → α → Prop} {default a : α}

theorem entry?_eq_some (h : ∀ v a, decode? v = some a ↔ holds v a) :
    entry? es name decode? default = some a ↔ Gives es name holds default a := by
  unfold entry? Gives
  cases es.lookup name.toList <;> simp [h, eq_comm]

theorem entry?_eq_none (h : ∀ v a, decode? v = some a ↔ holds v a) :
    entry? es name decode? default = none ↔ Mistypes es name holds := by
  unfold entry? Mistypes
  cases es.lookup name.toList <;> simp [← h, Option.eq_none_iff_forall_ne_some]

end

/-- **A table gives options exactly if every setting in it has its type**: those that the values hold, and the default
ones for those left out. -/
theorem ofTable?_eq_some : ofTable? es = some o ↔ GivesOptions es o := by
  constructor
  · intro h
    obtain ⟨languages, hlanguages, h⟩ := Option.bind_eq_some_iff.1 h
    obtain ⟨reveal, hreveal, h⟩ := Option.bind_eq_some_iff.1 h
    obtain ⟨disabled, hdisabled, h⟩ := Option.bind_eq_some_iff.1 h
    obtain rfl := Option.some.inj h
    exact ⟨(entry?_eq_some fun _ _ => texts?_eq_some).1 hlanguages,
      (entry?_eq_some fun _ _ => boolean?_eq_some).1 hreveal, (entry?_eq_some fun _ _ => kinds?_eq_some).1 hdisabled⟩
  · rintro ⟨hlanguages, hreveal, hdisabled⟩
    rw [← entry?_eq_some fun _ _ => texts?_eq_some] at hlanguages
    rw [← entry?_eq_some fun _ _ => boolean?_eq_some] at hreveal
    rw [← entry?_eq_some fun _ _ => kinds?_eq_some] at hdisabled
    exact Option.bind_eq_some_iff.2 ⟨_, hlanguages, Option.bind_eq_some_iff.2 ⟨_, hreveal,
      Option.bind_eq_some_iff.2 ⟨_, hdisabled, rfl⟩⟩⟩

/-- **It gives none exactly if one of the settings in it has another type**, whatever the others are. -/
theorem ofTable?_eq_none : ofTable? es = none ↔ MistypesSome es := by
  rw [MistypesSome, ← entry?_eq_none fun _ _ => texts?_eq_some, ← entry?_eq_none fun _ _ => boolean?_eq_some,
    ← entry?_eq_none fun _ _ => kinds?_eq_some]
  unfold ofTable?
  cases entry? es languagesKey texts? Options.default.languages with
  | none => simp
  | some languages =>
    cases entry? es revealKey boolean? Options.default.revealSelectedLines with
    | none => simp
    | some reveal => cases entry? es disabledKey kinds? Options.default.disabledKinds <;> simp

/-- a list with the name of no kind has not the type of its setting -/
theorem mistypesSome_of_unknown {name : List Char} (h : es.lookup disabledKey.toList = some v) (hlists : Lists v vs)
    (hname : .text name ∈ vs) (hunknown : ∀ k : Kind, name ≠ k.name.toList) : MistypesSome es :=
  Or.inr (Or.inr ⟨v, h, not_holdsKinds_of_unknown hlists hname hunknown⟩)

end MarkVeil.Settings
