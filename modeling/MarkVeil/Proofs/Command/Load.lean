/-
What a settings file gives.

The settings are read off the table of the file's document, each by its own name, whatever else is in it (`LoadsAs`).
Main result:
- `load_keys`: the settings there are come with the default ones of the others, in any order and beside any other names;
  one of them with another type, or the name of no kind, and nothing is loaded.
-/
import MarkVeil.Proofs.Command.Disk
import MarkVeil.Proofs.Settings.Keys
import MarkVeil.Proofs.Toml.Table

namespace MarkVeil.Command

open MarkVeil.Decoration (Kind)
open MarkVeil.Editor (Options)
open MarkVeil.Settings
open MarkVeil.Toml

/-- what comes of loading a document with a table -/
structure LoadsAs (d : Document) (es : Entries) (loaded : Except SettingsError (Option Options)) : Prop where
  /-- a value assigned to a name is that name's -/
  assigned : ∀ k v, ⟨[k], v⟩ ∈ d.top → es.lookup k = some v
  /-- the names left out are those that no statement begins with -/
  absent : ∀ k, es.lookup k = none ↔ k ∉ d.names
  /-- the options are the settings there are and the default ones of the others -/
  given : ∀ o, loaded = .ok (some o) ↔ GivesOptions es o
  /-- one setting with another type, and there are no options at all -/
  rejected : loaded = .error .malformed ↔ MistypesSome es
  /-- nor with the name of no kind, wherever it is in the list -/
  unknown : ∀ v vs name, es.lookup disabledKey.toList = some v → Lists v vs → .text name ∈ vs →
    (∀ k : Kind, name ≠ k.name.toList) → loaded = .error .malformed

def settingNames : List Key := [languagesKey.toList, revealKey.toList, disabledKey.toList]

/-- the lines of some of the settings -/
def settingLines (languages? : Option (List String)) (reveal? : Option Bool) (disabled? : Option (List Kind)) :
    List Line :=
  (languages?.map languagesLine).toList ++ (reveal?.map revealLine).toList ++ (disabled?.map disabledLine).toList

variable {s : List Char} {d : Document} {es : Entries} {ls others : List Line} {l : Line}
  {languages? : Option (List String)} {reveal? : Option Bool} {disabled? : Option (List Kind)}

/-! ## Documents -/

/-- **A text is loaded as the table of its document says.** -/
theorem loadsAs_of_ofText? (hread : Document.ofText? s = some d) (htable : d.table? = some es) :
    LoadsAs d es (loadSettings (.ok s)) := by
  have hoptions : Settings.ofText? s = ofTable? es := by
    rw [Settings.ofText?, readTable?, hread, Option.bind_some, htable, Option.bind_some]
  have hload : loadSettings (.ok s) = (ofTable? es).elim (.error .malformed) fun o => .ok (some o) := by
    rw [loadSettings, hoptions]
    cases ofTable? es <;> rfl
  have hrejected : loadSettings (.ok s) = .error .malformed ↔ MistypesSome es := by
    rw [hload, ← ofTable?_eq_none]
    cases ofTable? es <;> simp
  exact {
    assigned := fun k v => lookup_of_ofText? hread htable
    absent := Document.lookup_eq_none htable
    given := fun o => by
      rw [hload, ← ofTable?_eq_some]
      cases ofTable? es <;> simp
    rejected := hrejected
    unknown := fun v vs name h hlists hname hunknown =>
      hrejected.2 (mistypesSome_of_unknown h hlists hname hunknown) }

/-- so is a text of lines with different names -/
theorem loadsAs_lines (hls : (ls.map Line.name).Nodup) : LoadsAs ⟨ls.map Line.assignment, []⟩
    (ls.map fun l => (l.name, l.value)) (loadSettings (.ok (ls.flatMap Line.written))) :=
  loadsAs_of_ofText? (ofText?_lines ls) (table?_lines ls hls)

theorem lookup_line (hls : (ls.map Line.name).Nodup) (hl : l ∈ ls) :
    (ls.map fun l => (l.name, l.value)).lookup l.name = some l.value :=
  (loadsAs_lines hls).assigned _ _ (List.mem_map_of_mem hl)

theorem lookup_no_line (hls : (ls.map Line.name).Nodup) {k : Key} (hk : ∀ l ∈ ls, l.name ≠ k) :
    (ls.map fun l => (l.name, l.value)).lookup k = none := by
  rw [(loadsAs_lines hls).absent, Document.names, List.map_map, List.map_nil, List.append_nil, List.mem_map]
  rintro ⟨l, hl, hname⟩
  exact hk l hl hname

/-! ## Lines of settings -/

theorem holdsTexts_languagesLine (languages : List String) : HoldsTexts (languagesLine languages).value languages :=
  texts?_eq_some.1 (texts?_array languages)

theorem holdsKinds_disabledLine (disabled : List Kind) : HoldsKinds (disabledLine disabled).value disabled :=
  kinds?_eq_some.1 (kinds?_array disabled)

theorem mem_settingLines : l ∈ settingLines languages? reveal? disabled? ↔
    (∃ languages ∈ languages?, l = languagesLine languages) ∨ (∃ reveal ∈ reveal?, l = revealLine reveal) ∨
      ∃ disabled ∈ disabled?, l = disabledLine disabled := by
  simp [settingLines, or_assoc, eq_comm]

theorem names_of_option {α : Type} (line : α → Line) {k : Key} (hname : ∀ a, (line a).name = k) (a? : Option α) :
    ((a?.map line).toList.map Line.name).Sublist [k] := by
  cases a? with
  | none => exact List.nil_sublist _
  | some a => simp [hname]

theorem names_settingLines : ((settingLines languages? reveal? disabled?).map Line.name).Sublist settingNames := by
  rw [settingLines, List.map_append, List.map_append]
  have hlanguages := names_of_option languagesLine (fun _ => rfl) languages?
  have hreveal := names_of_option revealLine (fun _ => rfl) reveal?
  have hdisabled := names_of_option disabledLine (fun _ => rfl) disabled?
  exact (hlanguages.append hreveal).append hdisabled

theorem settingNames_ne : languagesKey.toList ≠ revealKey.toList ∧ languagesKey.toList ≠ disabledKey.toList ∧
    revealKey.toList ≠ disabledKey.toList := by decide

/-- among the lines of settings and others, one with the name of a setting is its line -/
theorem setting_of_name (hothers : ∀ l ∈ others, l.name ∉ settingNames)
    (hl : l ∈ settingLines languages? reveal? disabled? ++ others) :
    (l.name = languagesKey.toList → ∃ languages ∈ languages?, l = languagesLine languages) ∧
      (l.name = revealKey.toList → ∃ reveal ∈ reveal?, l = revealLine reveal) ∧
      (l.name = disabledKey.toList → ∃ disabled ∈ disabled?, l = disabledLine disabled) := by
  obtain ⟨hlr, hld, hrd⟩ := settingNames_ne
  rw [List.mem_append, mem_settingLines] at hl
  rcases hl with (hlanguages | hreveal | hdisabled) | hother
  · have hname : l.name = languagesKey.toList := by
      obtain ⟨_, -, rfl⟩ := hlanguages
      rfl
    exact ⟨fun _ => hlanguages, fun h => absurd (hname.symm.trans h) hlr, fun h => absurd (hname.symm.trans h) hld⟩
  · have hname : l.name = revealKey.toList := by
      obtain ⟨_, -, rfl⟩ := hreveal
      rfl
    exact ⟨fun h => absurd (h.symm.trans hname) hlr, fun _ => hreveal, fun h => absurd (hname.symm.trans h) hrd⟩
  · have hname : l.name = disabledKey.toList := by
      obtain ⟨_, -, rfl⟩ := hdisabled
      rfl
    exact ⟨fun h => absurd (h.symm.trans hname) hld, fun h => absurd (h.symm.trans hname) hrd, fun _ => hdisabled⟩
  · have hname := hothers l hother
    simp only [settingNames, List.mem_cons, List.not_mem_nil, or_false, not_or] at hname
    exact ⟨fun h => absurd h hname.1, fun h => absurd h hname.2.1, fun h => absurd h hname.2.2⟩

/-- a line gives its setting; with no line of its name, the setting is left out -/
theorem gives_of_lines {α : Type} {line : α → Line} {name : String} {holds : Value → α → Prop} {a? : Option α}
    (hls : (ls.map Line.name).Nodup) (hname : ∀ a, (line a).name = name.toList) (hholds : ∀ a, holds (line a).value a)
    (hin : ∀ a ∈ a?, line a ∈ ls) (honly : ∀ l ∈ ls, l.name = name.toList → ∃ a ∈ a?, l = line a) (default : α) :
    Gives (ls.map fun l => (l.name, l.value)) name holds default (a?.getD default) := by
  cases a? with
  | none =>
    refine Or.inr ⟨lookup_no_line hls fun l hl hl' => ?_, rfl⟩
    obtain ⟨a, ha, -⟩ := honly l hl hl'
    cases ha
  | some a =>
    refine Or.inl ⟨(line a).value, ?_, hholds a⟩
    rw [← hname a]
    exact lookup_line hls (hin a rfl)

/-- **Lines give their settings**, in any order and beside others. -/
theorem givesOptions_lines (hls : (ls.map Line.name).Nodup) (hothers : ∀ l ∈ others, l.name ∉ settingNames)
    (hperm : ls.Perm (settingLines languages? reveal? disabled? ++ others)) :
    GivesOptions (ls.map fun l => (l.name, l.value)) ⟨languages?.getD Options.default.languages,
      reveal?.getD Options.default.revealSelectedLines, disabled?.getD Options.default.disabledKinds⟩ := by
  have hin : ∀ l ∈ settingLines languages? reveal? disabled?, l ∈ ls := fun l hl =>
    hperm.mem_iff.2 (List.mem_append_left _ hl)
  have honly := fun l (hl : l ∈ ls) => setting_of_name hothers (hperm.mem_iff.1 hl)
  exact {
    languages := gives_of_lines hls (fun _ => rfl) holdsTexts_languagesLine
      (fun a ha => hin _ (mem_settingLines.2 (Or.inl ⟨a, ha, rfl⟩))) (fun l hl => (honly l hl).1) _
    reveal := gives_of_lines hls (fun _ => rfl) (fun _ => rfl)
      (fun a ha => hin _ (mem_settingLines.2 (Or.inr (Or.inl ⟨a, ha, rfl⟩)))) (fun l hl => (honly l hl).2.1) _
    disabled := gives_of_lines hls (fun _ => rfl) holdsKinds_disabledLine
      (fun a ha => hin _ (mem_settingLines.2 (Or.inr (Or.inr ⟨a, ha, rfl⟩)))) (fun l hl => (honly l hl).2.2) _ }

theorem names_nodup_of_perm (hnames : (others.map Line.name).Nodup) (hothers : ∀ l ∈ others, l.name ∉ settingNames)
    (hperm : ls.Perm (settingLines languages? reveal? disabled? ++ others)) : (ls.map Line.name).Nodup := by
  rw [(hperm.map Line.name).nodup_iff, List.map_append]
  refine List.Nodup.append (names_settingLines.nodup (by decide)) hnames fun k hk hk' => ?_
  obtain ⟨l, hl, rfl⟩ := List.mem_map.1 hk'
  exact hothers l hl (names_settingLines.subset hk)

/-- **A settings file gives what it holds**: the settings there are, however it writes and orders them and whatever
else it holds, and the default ones of the others. One with another type, or the name of no kind among the kinds, and
nothing is loaded. -/
theorem load_keys {disk : Disk} {cwd : Place} {path : String} {s : List Char} (hfile : disk.read cwd path = .ok s) :
    (∀ d es, Document.ofText? s = some d → d.table? = some es → LoadsAs d es (loadSettings (disk.read cwd path))) ∧
      (∀ ls : List Line, (ls.map Line.name).Nodup → s = ls.flatMap Line.written →
        LoadsAs ⟨ls.map Line.assignment, []⟩ (ls.map fun l => (l.name, l.value))
          (loadSettings (disk.read cwd path))) ∧
      ∀ languages? reveal? disabled? (others ls : List Line), (others.map Line.name).Nodup →
        (∀ l ∈ others, l.name ∉ settingNames) → ls.Perm (settingLines languages? reveal? disabled? ++ others) →
        s = ls.flatMap Line.written →
        loadSettings (disk.read cwd path) = .ok (some ⟨languages?.getD Options.default.languages,
          reveal?.getD Options.default.revealSelectedLines, disabled?.getD Options.default.disabledKinds⟩) := by
  rw [hfile]
  refine ⟨fun d es => loadsAs_of_ofText?, ?_, ?_⟩
  · rintro ls hls rfl
    exact loadsAs_lines hls
  · rintro languages? reveal? disabled? others ls hnames hothers hperm rfl
    have hls := names_nodup_of_perm hnames hothers hperm
    exact ((loadsAs_lines hls).given _).2 (givesOptions_lines hls hothers hperm)

/-- a file with one setting, another name and a table in which the name of a setting is none -/
def someKinds : List Char :=
  "wrap = 80\ndisabled_kinds = ['link', \"bold\"] # no links\n\n[window]\nlanguages = 3\n".toList

theorem load_keys_some_kinds :
    Disk.read ⟨[], [(["config.toml"], Disk.encode someKinds)]⟩ [] "config.toml" = .ok someKinds ∧
      loadSettings (Disk.read ⟨[], [(["config.toml"], Disk.encode someKinds)]⟩ [] "config.toml") =
        .ok (some ⟨Options.default.languages, Options.default.revealSelectedLines, [.link, .bold]⟩) := by
  have hfile : Disk.read ⟨[], [(["config.toml"], Disk.encode someKinds)]⟩ [] "config.toml" = .ok someKinds :=
    Disk.read_of_lookup (p := ["config.toml"]) (by decide) (by decide) (by simp)
  have hread : Document.ofText? someKinds = some
      ⟨[⟨["wrap".toList], .integer 80⟩, ⟨[disabledKey.toList], .array [.text "link".toList, .text "bold".toList]⟩],
        [⟨false, ["window".toList], [⟨[languagesKey.toList], .integer 3⟩]⟩]⟩ := by
    rfl
  have htable : Document.table?
      ⟨[⟨["wrap".toList], .integer 80⟩, ⟨[disabledKey.toList], .array [.text "link".toList, .text "bold".toList]⟩],
        [⟨false, ["window".toList], [⟨[languagesKey.toList], .integer 3⟩]⟩]⟩ = some
      [("wrap".toList, .integer 80), (disabledKey.toList, .array [.text "link".toList, .text "bold".toList]),
        ("window".toList, .table .header [(languagesKey.toList, .integer 3)])] := by
    rfl
  refine ⟨hfile, (((load_keys hfile).1 _ _ hread htable).given _).2 ?_⟩
  exact {
    languages := Or.inr ⟨rfl, rfl⟩
    reveal := Or.inr ⟨rfl, rfl⟩
    disabled := Or.inl ⟨_, rfl, kinds?_eq_some.1 rfl⟩ }

end MarkVeil.Command
