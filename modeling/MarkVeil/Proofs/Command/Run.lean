/-
What a run does to the settings.

A run saves settings only if its arguments fit and ask for it and there are settings to add to, or none at all
(`Saves`). What it saves then are those settings with the kinds of its arguments behind the ones that were disabled
before, each once (`disableAll_eq`). Main results:
- `run_settings`: the settings file holds what is to be saved, or nothing on the disk has changed, and another run with
  the same arguments changes nothing more;
- `dump_disabled`: to disable kinds for one listing is to disable them in the settings and then to list.
-/
import MarkVeil.Proofs.Command.Arguments
import MarkVeil.Proofs.Command.Disk

namespace MarkVeil.Command

open MarkVeil.Decoration (Kind Reader)
open MarkVeil.Editor (Options)
open MarkVeil.Settings (Environment)

variable {read : Reader} {program file path : String} {env : Environment} {args : List String} {d d' : Disk}
  {cwd : Place} {a : Arguments} {o : Options} {o? : Option Options} {k : Kind} {ks : List Kind} {text : List Char}

/-! ## Disabling kinds -/

/-- the options with more kinds disabled: those that were not, in the order in which they first come -/
def alsoDisabling (o : Options) (ks : List Kind) : Options :=
  { o with disabledKinds := o.disabledKinds ++ (ks.filter (· ∉ o.disabledKinds)).eraseDups }

theorem disable_of_mem (h : k ∈ o.disabledKinds) : disable o k = o := by
  rw [disable, if_pos (List.contains_iff_mem.2 h)]

theorem disable_of_not_mem (h : k ∉ o.disabledKinds) :
    disable o k = { o with disabledKinds := o.disabledKinds ++ [k] } := by
  rw [disable, if_neg (mt List.contains_iff_mem.1 h)]

/-- **Kinds disabled one after the other come behind those disabled before**, each once. -/
theorem disableAll_eq (o : Options) (ks : List Kind) : disableAll o ks = alsoDisabling o ks := by
  induction ks generalizing o with
  | nil => simp [disableAll, alsoDisabling]
  | cons k ks ih =>
    rw [disableAll, List.foldl_cons, ← disableAll, ih]
    by_cases hk : k ∈ o.disabledKinds
    · rw [disable_of_mem hk]
      simp [alsoDisabling, hk]
    · rw [disable_of_not_mem hk]
      have hboth : ks.filter (· ∉ o.disabledKinds ++ [k]) = (ks.filter (· ∉ o.disabledKinds)).filter (!· == k) := by
        rw [List.filter_filter]
        refine List.filter_congr fun j _ => ?_
        rw [Bool.eq_iff_iff]
        simp [and_comm]
      have hfirst : (k :: ks).filter (· ∉ o.disabledKinds) = k :: ks.filter (· ∉ o.disabledKinds) :=
        List.filter_cons_of_pos (decide_eq_true hk)
      simp only [alsoDisabling, hboth, hfirst, List.eraseDups_cons, List.append_assoc, List.singleton_append]

/-- kinds that are disabled already change nothing -/
theorem disableAll_of_subset (h : ∀ k ∈ ks, k ∈ o.disabledKinds) : disableAll o ks = o := by
  have hnone : ks.filter (· ∉ o.disabledKinds) = [] := by simpa using h
  rw [disableAll_eq, alsoDisabling, hnone, List.eraseDups_nil, List.append_nil]

theorem mem_disableAll (h : k ∈ ks) : k ∈ (disableAll o ks).disabledKinds := by
  rw [disableAll_eq, alsoDisabling, List.mem_append, List.mem_eraseDups, List.mem_filter, decide_eq_true_iff]
  exact (Classical.em (k ∈ o.disabledKinds)).imp_right fun hk => ⟨h, hk⟩

theorem disableAll_disableAll (o : Options) (ks : List Kind) : disableAll (disableAll o ks) ks = disableAll o ks :=
  disableAll_of_subset fun _ => mem_disableAll

/-! ## Runs -/

/-- a disk on which the settings can be saved -/
structure Home (env : Environment) (cwd : Place) (d : Disk) : Prop where
  rooted : d.Rooted
  inside : d.isDirectory cwd = true
  writable : d.Writable cwd env.settingsPath

def settingsPlace (env : Environment) (cwd : Place) : Place := Disk.placeOf cwd env.settingsPath

/-- settings can be saved, and be saved again afterwards -/
theorem Home.write (h : Home env cwd d) (text : List Char) :
    ∃ d', d.write cwd env.settingsPath text = .ok d' ∧ Home env cwd d' ∧ d'.read cwd env.settingsPath = .ok text ∧
      Disk.Stored d d' cwd env.settingsPath text := by
  obtain ⟨d', hwrite, hstored⟩ := h.writable.write_ok h.rooted h.inside text
  exact ⟨d', hwrite, ⟨hstored.rooted, hstored.isDirectory h.inside, hstored.writable h.writable⟩,
    hstored.read h.inside h.writable, hstored⟩

/-- a run with wrong arguments prints nothing but a complaint -/
theorem run_wrong {e : ArgumentError} (h : Arguments.parse env.expandPath args = .error e) :
    ((script program env args read).run cwd d).output = [] ∧ ((script program env args read).run cwd d).disk = d := by
  rw [script, h]
  exact ⟨rfl, rfl⟩

/-- nor does a run that cannot load the settings -/
theorem run_unloaded {e : SettingsError} (hargs : Arguments.parse env.expandPath args = .ok a)
    (h : loadSettings (d.read cwd env.settingsPath) = .error e) :
    ((script program env args read).run cwd d).disk = d := by
  rw [script, hargs]
  simp only [Script.run, h]

/-- otherwise it goes on with the settings there are -/
theorem run_loaded (hargs : Arguments.parse env.expandPath args = .ok a)
    (h : loadSettings (d.read cwd env.settingsPath) = .ok o?) :
    (script program env args read).run cwd d =
      (withSettings env.settingsPath (disableAll (o?.getD Options.default) a.disabled) a read).run cwd d := by
  rw [script, hargs]
  simp only [Script.run, h]

/-- to list or show a document changes no file -/
theorem disk_finish (read : Reader) (o : Options) (a : Arguments) (cwd : Place) (d : Disk) :
    ((finish o a read).run cwd d).disk = d := by
  unfold finish
  split
  · rfl
  · rw [openDocument, Script.run]
    split
    · rfl
    · split_ifs <;> rfl

theorem run_unsaved (h : a.writeConfig = false) :
    (withSettings path o a read).run cwd d = (finish o a read).run cwd d := by
  rw [withSettings, h, if_neg Bool.false_ne_true]

theorem run_saved (h : a.writeConfig = true) (hwrite : d.write cwd path (Settings.toText o) = .ok d') :
    ((withSettings path o a read).run cwd d).disk = d' ∧
      ((withSettings path o a read).run cwd d).output =
        ("Wrote config to " ++ path ++ "\n").toList ++ ((finish o a read).run cwd d').output := by
  rw [withSettings, h, if_pos rfl, Script.run, hwrite]
  exact ⟨disk_finish read o a cwd d', rfl⟩

/-! ## Saving settings -/

/-- a run is to save settings: `o` are those there were, `ks` the kinds to disable -/
structure Saves (env : Environment) (args : List String) (content : Except Fault (List Char)) (o : Options)
    (ks : List Kind) : Prop where
  fits : ∃ a, Arguments.parse env.expandPath args = .ok a
  asked : "--write-config" ∈ args
  named : ks.map Kind.name = disabledNames args
  /-- the settings in the file, or the default ones if there is no file -/
  loaded : loadSettings content = .ok (some o) ∨ loadSettings content = .ok none ∧ o = Options.default

/-- what a run does to the settings file of a disk `d` -/
structure Keeps (env : Environment) (args : List String) (cwd : Place) (d d' : Disk) : Prop where
  saved : ∀ o ks, Saves env args (d.read cwd env.settingsPath) o ks →
    d'.read cwd env.settingsPath = .ok (Settings.toText (alsoDisabling o ks))
  /-- no byte of any file changes in another run -/
  kept : (¬ ∃ o ks, Saves env args (d.read cwd env.settingsPath) o ks) → d' = d
  wrong : ∀ e, Arguments.parse env.expandPath args = .error e → d' = d
  unloaded : ∀ e, loadSettings (d.read cwd env.settingsPath) = .error e → d' = d

/-- the arguments and the settings of a run that is to save -/
theorem Saves.run_eq (h : Saves env args (d.read cwd env.settingsPath) o ks) :
    ∃ a, Arguments.parse env.expandPath args = .ok a ∧ a.writeConfig = true ∧ a.disabled = ks ∧
      ∀ program, (script program env args).run cwd d =
        (withSettings env.settingsPath (disableAll o ks) a).run cwd d := by
  obtain ⟨a, hargs⟩ := h.fits
  have hdisabled : a.disabled = ks :=
    name_injective.list_map ((Arguments.disabledNames_eq hargs).trans h.named.symm)
  refine ⟨a, hargs, (Arguments.writeConfig_iff hargs).2 h.asked, hdisabled, fun program => ?_⟩
  rcases h.loaded with hload | ⟨hload, rfl⟩ <;> rw [run_loaded hargs hload, hdisabled] <;> rfl

/-- a run that is to save does so -/
theorem Saves.run_disk (h : Saves env args (d.read cwd env.settingsPath) o ks) (hhome : Home env cwd d)
    (program : String) :
    ∃ d', ((script program env args).run cwd d).disk = d' ∧ Home env cwd d' ∧
      d'.read cwd env.settingsPath = .ok (Settings.toText (disableAll o ks)) := by
  obtain ⟨a, -, hwrite, -, hrun⟩ := h.run_eq
  obtain ⟨d', hdisk, hhome', hread, -⟩ := hhome.write (Settings.toText (disableAll o ks))
  refine ⟨d', ?_, hhome', hread⟩
  rw [hrun]
  exact (run_saved hwrite hdisk).1

/-- a run that is not to save changes nothing -/
theorem disk_of_not_saves (h : ¬ ∃ o ks, Saves env args (d.read cwd env.settingsPath) o ks) :
    ((script program env args).run cwd d).disk = d := by
  cases hargs : Arguments.parse env.expandPath args with
  | error e => exact (run_wrong hargs).2
  | ok a =>
    cases hload : loadSettings (d.read cwd env.settingsPath) with
    | error e => exact run_unloaded hargs hload
    | ok o? =>
      have hwrite : a.writeConfig = false := by
        rw [← Bool.not_eq_true]
        intro hwrite
        refine h ⟨o?.getD Options.default, a.disabled, ⟨a, hargs⟩, (Arguments.writeConfig_iff hargs).1 hwrite,
          Arguments.disabledNames_eq hargs, ?_⟩
        cases o? with
        | none => exact Or.inr ⟨hload, rfl⟩
        | some o => exact Or.inl hload
      rw [run_loaded hargs hload, run_unsaved hwrite, disk_finish]

/-- **A run saves its settings or leaves every file as it is, and another run with the same arguments leaves the saved
text as it is.** -/
theorem run_settings (program : String) (args : List String) (hhome : Home env cwd d) :
    Keeps env args cwd d ((script program env args).run cwd d).disk ∧
      ((script program env args).run cwd ((script program env args).run cwd d).disk).disk.read cwd env.settingsPath =
        ((script program env args).run cwd d).disk.read cwd env.settingsPath := by
  refine ⟨⟨?_, disk_of_not_saves, ?_, ?_⟩, ?_⟩
  · intro o ks h
    obtain ⟨d', rfl, -, hread⟩ := h.run_disk hhome program
    rw [hread, disableAll_eq]
  · intro e he
    exact (run_wrong he).2
  · intro e he
    refine disk_of_not_saves ?_
    rintro ⟨o, ks, h⟩
    rcases h.loaded with hload | ⟨hload, -⟩ <;> rw [he] at hload <;> cases hload
  · by_cases h : ∃ o ks, Saves env args (d.read cwd env.settingsPath) o ks
    · obtain ⟨o, ks, h⟩ := h
      obtain ⟨d', hrun, hhome', hread⟩ := h.run_disk hhome program
      -- the second run loads what the first has saved, and all its kinds are disabled there
      have hagain : Saves env args (d'.read cwd env.settingsPath) (disableAll o ks) ks :=
        ⟨h.fits, h.asked, h.named, Or.inl (by rw [hread, loadSettings, Settings.ofText?_toText])⟩
      obtain ⟨d'', hrun', -, hread'⟩ := hagain.run_disk hhome' program
      rw [hrun, hrun', hread', hread, disableAll_disableAll]
    · rw [disk_of_not_saves h, disk_of_not_saves h]

/-- links are disabled in the settings there are, code by the arguments, and the settings are written once more -/
theorem run_settings_added :
    let env : Environment := ⟨[("HOME", "/h")], none⟩
    let old : Options := { Options.default with disabledKinds := [.link] }
    let d : Disk := ⟨[["h"], ["h", ".config"], ["h", ".config", "markdown-live"]],
      [(["h", ".config", "markdown-live", "config.toml"], Disk.encode (Settings.toText old))]⟩
    let args := ["--disable", "code", "--write-config", "--disable", "link", "--disable", "code"]
    let d' := ((script programName env args).run ["h"] d).disk
    Home env ["h"] d ∧
      d'.read ["h"] env.settingsPath = .ok (Settings.toText { old with disabledKinds := [.link, .code] }) ∧
      ((script programName env args).run ["h"] d').disk.read ["h"] env.settingsPath =
        d'.read ["h"] env.settingsPath := by
  intro env old d args d'
  have hpath : env.settingsPath = "/h/.config/markdown-live/config.toml" := by decide +kernel
  have hrooted : d.Rooted := by
    intro p hp
    rcases Disk.isDirectory_iff.1 hp with rfl | hp
    · rfl
    · fin_cases hp <;> rfl
  have hwritable : d.Writable ["h"] env.settingsPath := by
    rw [hpath]
    exact ⟨⟨"config.toml", by decide⟩, by decide, by decide⟩
  have hhome : Home env ["h"] d := ⟨hrooted, rfl, hwritable⟩
  have hread : d.read ["h"] env.settingsPath = .ok (Settings.toText old) := by
    rw [hpath]
    exact Disk.read_of_lookup (p := ["h", ".config", "markdown-live", "config.toml"]) rfl rfl rfl
  have hload : loadSettings (d.read ["h"] env.settingsPath) = .ok (some old) := by
    rw [hread, loadSettings, Settings.ofText?_toText]
  have hsaves : Saves env args (d.read ["h"] env.settingsPath) old [.code, .link, .code] :=
    ⟨⟨_, rfl⟩, by decide, rfl, Or.inl hload⟩
  have hadded : alsoDisabling old [.code, .link, .code] = { old with disabledKinds := [.link, .code] } := by decide
  obtain ⟨hkeeps, hagain⟩ := run_settings programName args hhome
  have hsaved := hkeeps.saved _ _ hsaves
  rw [hadded] at hsaved
  exact ⟨hhome, hsaved, hagain⟩

/-! ## Disabling kinds for one listing -/

/-- a run that is to list a readable document prints its decorations -/
theorem output_finish (h : d.read cwd path = .ok text) (o : Options) (ks : List Kind) :
    ((finish o ⟨some path, true, false, ks⟩ read).run cwd d).output = dump text o read := by
  simp only [finish, openDocument, Script.run, h, if_true]
  exact List.append_nil _

/-- a listing shows the document without the kinds that are disabled in the settings or by the arguments -/
theorem output_listing (hfile : Arguments.isOption file = false)
    (hload : loadSettings (d.read cwd env.settingsPath) = .ok o?) (hread : d.read cwd (env.expandPath file) = .ok text)
    (program : String) (ks : List Kind) :
    ((script program env ("--dump" :: disabling ks ++ [file]) read).run cwd d).output =
      dump text (disableAll (o?.getD Options.default) ks) read := by
  rw [run_loaded (Arguments.parse_listing _ ks hfile) hload, run_unsaved rfl, output_finish hread]

/-- **To disable kinds for one listing is to disable them in the settings and then to list**: both print the document's
decorations without the kinds that are disabled in the settings or among these, as the reader of tokens has them. -/
theorem dump_disabled (read : Reader) (program file : String) (ks : List Kind) (hhome : Home env cwd d)
    (hload : loadSettings (d.read cwd env.settingsPath) = .ok o?)
    (hread : d.read cwd (env.expandPath file) = .ok text)
    (hother : d.resolve cwd (env.expandPath file) ≠ .ok (settingsPlace env cwd)) :
    ((script program env ("--dump" :: disabling ks ++ [file]) read).run cwd d).output =
        ((script program env ["--dump", file] read).run cwd
          ((script program env ("--write-config" :: disabling ks) read).run cwd d).disk).output ∧
      (Arguments.isOption file = false →
        ((script program env ("--dump" :: disabling ks ++ [file]) read).run cwd d).output =
          dump text (alsoDisabling (o?.getD Options.default) ks) read) := by
  set o := disableAll (o?.getD Options.default) ks with ho
  obtain ⟨d', hwrite, hhome', hread', hstored⟩ := hhome.write (Settings.toText o)
  have hdisk : ((script program env ("--write-config" :: disabling ks) read).run cwd d).disk = d' := by
    rw [run_loaded (Arguments.parse_writing _ ks) hload]
    exact (run_saved rfl hwrite).1
  have hload' : loadSettings (d'.read cwd env.settingsPath) = .ok (some o) := by
    rw [hread', loadSettings, Settings.ofText?_toText]
  have hnone : ["--dump", file] = "--dump" :: disabling [] ++ [file] := rfl
  rw [hdisk, hnone]
  cases hfile : Arguments.isOption file with
  | false =>
    have hdocument := hstored.read_other hhome.writable hother hread
    have hlisted :
        ((script program env ("--dump" :: disabling ks ++ [file]) read).run cwd d).output = dump text o read :=
      output_listing hfile hload hread program ks
    have hlisted' :
        ((script program env ("--dump" :: disabling [] ++ [file]) read).run cwd d').output = dump text o read :=
      output_listing hfile hload' hdocument program []
    refine ⟨hlisted.trans hlisted'.symm, fun _ => ?_⟩
    rw [hlisted, ho, disableAll_eq]
  | true =>
    -- an option is no document: both runs fail, or both save and list nothing
    refine ⟨?_, fun h => (Bool.noConfusion h : False).elim⟩
    by_cases hflag : file = "--write-config"
    · subst hflag
      obtain ⟨d'', hwrite', -⟩ := hhome'.write (Settings.toText (disableAll o []))
      rw [run_loaded (Arguments.parse_listing_flag _ ks) hload, run_loaded (Arguments.parse_listing_flag _ []) hload',
        (run_saved rfl hwrite).2]
      exact (run_saved (a := ⟨none, true, true, []⟩) rfl hwrite').2.symm
    · obtain ⟨e, he⟩ := Arguments.parse_listing_option env.expandPath ks hfile hflag
      obtain ⟨e', he'⟩ := Arguments.parse_listing_option env.expandPath [] hfile hflag
      rw [(run_wrong he).1, (run_wrong he').1]

/-- markers are disabled in the settings or for one listing, which shows what is between them -/
theorem dump_disabled_hide :
    let env : Environment := ⟨[("HOME", "/h")], none⟩
    let d : Disk := ⟨[["h"]], [(["h", "a.md"], Disk.encode "*a*".toList)]⟩
    Home env ["h"] d ∧ loadSettings (d.read ["h"] env.settingsPath) = .ok none ∧
      d.read ["h"] (env.expandPath "a.md") = .ok "*a*".toList ∧
      d.resolve ["h"] (env.expandPath "a.md") ≠ .ok (settingsPlace env ["h"]) ∧
      ((script programName env ("--dump" :: disabling [.hide] ++ ["a.md"])).run ["h"] d).output =
        "italic 1..2 \"a\"\n".toList ∧
      ((script programName env ["--dump", "a.md"]).run ["h"]
        ((script programName env ("--write-config" :: disabling [.hide])).run ["h"] d).disk).output =
          "italic 1..2 \"a\"\n".toList := by
  intro env d
  have hpath : env.settingsPath = "/h/.config/markdown-live/config.toml" := by decide +kernel
  have hfile : env.expandPath "a.md" = "a.md" := by decide +kernel
  have hrooted : d.Rooted := by
    intro p hp
    rcases Disk.isDirectory_iff.1 hp with rfl | hp
    · rfl
    · fin_cases hp
      rfl
  have hwritable : d.Writable ["h"] env.settingsPath := by
    rw [hpath]
    exact ⟨⟨"config.toml", by decide⟩, by decide, by decide⟩
  have hhome : Home env ["h"] d := ⟨hrooted, rfl, hwritable⟩
  have hload : loadSettings (d.read ["h"] env.settingsPath) = .ok none := by
    rw [hpath]
    rfl
  have hread : d.read ["h"] (env.expandPath "a.md") = .ok "*a*".toList := by
    rw [hfile]
    exact Disk.read_of_lookup (p := ["h", "a.md"]) rfl rfl rfl
  have hother : d.resolve ["h"] (env.expandPath "a.md") ≠ .ok (settingsPlace env ["h"]) := by
    have hplace : d.resolve ["h"] "a.md" = .ok ["h", "a.md"] := rfl
    rw [hfile, settingsPlace, hpath, hplace]
    intro h
    exact absurd (Except.ok.inj h) (by decide)
  have hdump : dump "*a*".toList (alsoDisabling Options.default [.hide]) = "italic 1..2 \"a\"\n".toList := by
    decide +kernel
  obtain ⟨hsame, hlisting⟩ := dump_disabled Token.parse programName "a.md" [.hide] hhome hload hread hother
  have houtput := (hlisting rfl).trans hdump
  exact ⟨hhome, hload, hread, hother, houtput, hsame.symm.trans houtput⟩

end MarkVeil.Command
