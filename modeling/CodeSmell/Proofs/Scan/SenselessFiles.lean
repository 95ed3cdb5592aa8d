import CodeSmell.Proofs.LoadedTexts
import CodeSmell.Proofs.Project.Composition
import CodeSmell.Proofs.Scan.Agreement

/-!
# Files that no sense can be made of

* `Senseless` : a content is no text, or no sense can be made of its text;
* `LacksFile.ofSources_eq` : a file with such a content adds nothing to a project;
* `Loader.FindsSame` : the checks find the same in two file systems, as they do when the projects are
  the same (`findsSame_of_ofSources_eq`);
* `LacksFile.length_path` : without a file there is one source less, if the file was loaded;
* `senseless_files_isolated` : removing a senseless file leaves all findings as they are.
-/

namespace CodeSmell

/-- A content is no text, or a text that no sense can be made of. -/
inductive Senseless (grammar : Grammar) (content : ByteArray) : Prop
  | notText (h : ∀ text : String, content ≠ text.toUTF8)
  | unrecognizable (text : String) (spells : Source.Spells content text)
      (h : (grammar text).root.kind = "ERROR")

theorem Source.Spells.exists_toUTF8 {content : ByteArray} {text : String}
    (h : Source.Spells content text) : ∃ full : String, content = full.toUTF8 := by
  rcases h with h | ⟨h, -⟩
  · exact ⟨_, h⟩
  · exact ⟨_, h⟩

/-- A content stands for one text at most. -/
theorem Source.Spells.unique {content : ByteArray} {text text' : String}
    (h : Source.Spells content text) (h' : Source.Spells content text') : text = text' := by
  rw [Source.spells_iff] at h h'
  rw [h, Option.some_inj] at h'
  exact h'

theorem Senseless.facts_eq_none {grammar : Grammar} {content : ByteArray} {text : String}
    (h : Senseless grammar content) (hspells : Source.Spells content text) (path : String) :
    (Source.read grammar path text).facts = none := by
  cases h with
  | notText hnone =>
    obtain ⟨full, hfull⟩ := hspells.exists_toUTF8
    exact absurd hfull (hnone full)
  | unrecognizable text' hspells' herror =>
    obtain rfl := hspells.unique hspells'
    have hunrecognizable : (grammar text).isUnrecognizable = true := beq_iff_eq.mpr herror
    rw [Source.read, Source.factsOf?, hunrecognizable]
    cases Language.ofPath? path <;> rfl

/-! ## What the checks look at -/

section Same

variable {sources sources' : List Source}
  (h : Project.ofSources sources' = Project.ofSources sources)
include h

theorem Project.flatMap_facts_congr {α : Type} (g : Facts → List α) :
    (sources'.flatMap fun s => s.facts.toList.flatMap g) =
      sources.flatMap fun s => s.facts.toList.flatMap g := by
  rw [flatMap_facts, flatMap_facts, h]

/-- A scan of sources that make the same project finds the same, save for the number of sources. -/
theorem Scan.resultOf_of_ofSources_eq (s : Scan) :
    s.resultOf sources' = { s.resultOf sources with scanned := sources'.length } := by
  unfold resultOf Source.longMethods Source.magicNumbers Source.namingViolations
  rw [h, Project.flatMap_facts_congr h, Project.flatMap_facts_congr h,
    Project.flatMap_facts_congr h]

end Same

/-- The checks find the same at a path in two file systems, and make the same project of what is
there: the same declarations, references, scopes and query syntax. -/
structure Loader.FindsSame (l : Loader) (fs fs' : FileSystem) (path : String) : Prop where
  project : Project.ofSources (l.path fs' path) = Project.ofSources (l.path fs path)
  longMethods : ∀ threshold,
    l.findLongMethods fs' path threshold = l.findLongMethods fs path threshold
  magicNumbers : l.findMagicNumbers fs' path = l.findMagicNumbers fs path
  namingViolations : l.findNamingViolations fs' path = l.findNamingViolations fs path
  deadCode : ∀ o, l.findDeadCode o fs' path = l.findDeadCode o fs path

theorem Loader.findsSame_of_ofSources_eq {l : Loader} {fs fs' : FileSystem} {path : String}
    (h : Project.ofSources (l.path fs' path) = Project.ofSources (l.path fs path)) :
    l.FindsSame fs fs' path := by
  refine ⟨h, fun threshold => Project.flatMap_facts_congr h _, Project.flatMap_facts_congr h _,
    Project.flatMap_facts_congr h _, fun o => ?_⟩
  unfold findDeadCode
  rw [h]

/-! ## Without a senseless file -/

/-- A file is loaded with the text that its content stands for. -/
theorem Loader.ComesTo.spells {l : Loader} {fs : FileSystem} {path : String} {names : List String}
    {text : String} (h : l.ComesTo fs path names text) {name : String} {content : ByteArray}
    (hfile : fs.root.at? names = some (.file name content)) : Source.Spells content text := by
  cases h with
  | directly located name' content' isFile spells admits =>
    rw [hfile] at isFile
    cases isFile
    exact spells
  | within above below d located stands isDirectory whole takes admits =>
    obtain ⟨name', content', hat, hspells⟩ := takes.holds
    rw [whole, Entry.at?_append, stands, Option.bind_some, hat] at hfile
    cases hfile
    exact hspells

namespace FileSystem.LacksFile

variable {fs fs' : FileSystem} {names : List String} {name : String} {content : ByteArray}

/-- A file that no sense can be made of adds nothing to a project. -/
theorem ofSources_eq (h : fs.LacksFile fs' names)
    (hfile : fs.root.at? names = some (.file name content)) (l : Loader) (path : String)
    (hs : Senseless l.grammar content) :
    Project.ofSources (l.path fs' path) = Project.ofSources (l.path fs path) := by
  unfold Project.ofSources
  rw [Loader.path_eq h.wellFormed', Loader.path_eq h.wellFormed, h.textsAt_eq, List.filterMap_map,
    List.filterMap_map, List.filterMap_filter]
  refine congrArg Project.mk (List.filterMap_congr fun (other, text) hmem => ?_)
  by_cases hother : other = names
  · subst hother
    have hspells := ((Loader.mem_textsAt_iff h.wellFormed).mp hmem).spells hfile
    simpa using (hs.facts_eq_none hspells _).symm
  · simp [hother]

/-- Without a file there is one source less, if the file was loaded. -/
theorem length_path (h : fs.LacksFile fs' names) (l : Loader) (path : String) :
    (∀ text, l.ComesTo fs path names text →
      (l.path fs path).length = (l.path fs' path).length + 1) ∧
    ((∀ text, ¬ l.ComesTo fs path names text) →
      (l.path fs' path).length = (l.path fs path).length) := by
  rw [Loader.path_eq h.wellFormed', Loader.path_eq h.wellFormed, List.length_map, List.length_map,
    h.textsAt_eq]
  simp only [← Loader.mem_textsAt_iff h.wellFormed]
  constructor
  · intro text hmem
    have hdistinct : ((l.textsAt fs path).map (·.1)).Nodup := by
      rw [List.Nodup, List.pairwise_map]
      refine (Loader.textsAt_pairwise h.wellFormed).imp fun {a b} hlt heq => ?_
      rw [heq] at hlt
      exact List.lt_irrefl b.1 hlt
    have hothers : ((l.textsAt fs path).filter (·.1 != names)).map (·.1) =
        ((l.textsAt fs path).map (·.1)).erase names := by
      rw [hdistinct.erase_eq_filter, List.filter_map]
      rfl
    have hlength := List.length_erase_add_one (List.mem_map_of_mem (f := (·.1)) hmem)
    rw [← hothers, List.length_map, List.length_map] at hlength
    exact hlength.symm
  · intro hnone
    refine congrArg List.length (List.filter_eq_self.mpr fun (other, text) hmem => ?_)
    rw [bne_iff_ne]
    rintro rfl
    exact hnone text hmem

end FileSystem.LacksFile

/-- **A file that no sense can be made of is isolated.** Removing it changes neither what the checks
find at any path nor what a scan of the path finds. The number of sources that are scanned goes
down only if the file is a text and was loaded. -/
theorem senseless_files_isolated (grammar : Grammar) (fs : FileSystem) (hwell : fs.root.WellFormed)
    (hroot : fs.root.isDirectory = true) {names : List String} {name : String}
    {content : ByteArray} (hfile : fs.root.at? names = some (.file name content))
    (hs : Senseless grammar content) :
    (∀ path, fs.locate path = .ok names → fs.remove path = .ok (fs.without names)) ∧
    (∀ excluded path, Loader.FindsSame ⟨grammar, excluded⟩ fs (fs.without names) path) ∧
    ∀ (s : Scan) (path : String),
      (∀ bad, s.run grammar fs path = .error bad →
        s.run grammar (fs.without names) path = .error bad) ∧
      ∀ r, s.run grammar fs path = .ok r →
        ∃ r', s.run grammar (fs.without names) path = .ok r' ∧
          r' = { r with scanned := r'.scanned } ∧
          ((∀ text : String, content ≠ text.toUTF8) → r'.scanned = r.scanned) ∧
          ∀ text globs, Source.Spells content text →
            Glob.parseAll s.settings.excludedPaths = .ok globs →
            (Loader.ComesTo ⟨grammar, globs⟩ fs path names text → r.scanned = r'.scanned + 1) ∧
            (¬ Loader.ComesTo ⟨grammar, globs⟩ fs path names text → r'.scanned = r.scanned) := by
  have hlacks := FileSystem.lacksFile_without hwell hroot hfile
  refine ⟨fun path => FileSystem.remove_eq_without, fun excluded path => ?_, fun s path => ?_⟩
  · exact Loader.findsSame_of_ofSources_eq (hlacks.ofSources_eq hfile _ path hs)
  cases hparse : Glob.parseAll s.settings.excludedPaths with
  | error bad =>
    rw [Scan.run_of_parseAll_error hparse, Scan.run_of_parseAll_error hparse]
    exact ⟨fun _ => id, nofun⟩
  | ok globs =>
    have hresult := s.resultOf_of_ofSources_eq (hlacks.ofSources_eq hfile ⟨grammar, globs⟩ path hs)
    obtain ⟨hcounted, huncounted⟩ := hlacks.length_path ⟨grammar, globs⟩ path
    rw [Scan.run_of_parseAll hparse, Scan.run_of_parseAll hparse]
    refine ⟨nofun, fun r hr => ?_⟩
    obtain rfl := Except.ok.inj hr
    refine ⟨_, rfl, ?_, fun hnone => huncounted fun text hcomes => ?_,
      fun text globs' hspells hglobs => ?_⟩
    · rw [hresult]
    · obtain ⟨full, hfull⟩ := (hcomes.spells hfile).exists_toUTF8
      exact hnone full hfull
    · obtain rfl := Except.ok.inj hglobs
      refine ⟨hcounted text, fun hnot => huncounted fun text' hcomes => hnot ?_⟩
      obtain rfl := (hcomes.spells hfile).unique hspells
      exact hcomes

/-- A source, and a file beside it that no sense can be made of. -/
def brokenEntries : List Entry :=
  [.file "Broken.cs" "?".toUTF8, .file "Shapes.cs" Syntax.Node.declaring.text.toUTF8]

/-- A file system with these in a directory `src`. -/
def brokenFiles : FileSystem where
  root := .directory "" [.directory "src" brokenEntries]

theorem brokenFiles_isolated :
    (brokenFiles.root.WellFormed ∧ Senseless smallGrammar "?".toUTF8 ∧
      brokenFiles.root.at? ["src", "Broken.cs"] = some (.file "Broken.cs" "?".toUTF8)) ∧
    ∃ r r', { settings := { excludedPaths := [] } : Scan }.run smallGrammar brokenFiles "/src" = .ok r ∧
      { settings := { excludedPaths := [] } : Scan }.run smallGrammar
        (brokenFiles.without ["src", "Broken.cs"]) "/src" = .ok r' ∧
      r' = { r with scanned := r'.scanned } ∧ r.scanned = r'.scanned + 1 := by
  have hwell : brokenFiles.root.WellFormed := by
    have hsrc : (Entry.directory "src" brokenEntries).WellFormed := by
      refine .directory _ _ (by decide) (by decide) ?_
      simp only [brokenEntries, List.forall_mem_cons]
      exact ⟨.file _ _, .file _ _, by simp⟩
    refine .directory _ _ (by decide) (by decide) fun e hmem => ?_
    rw [List.mem_singleton.mp hmem]
    exact hsrc
  have hspells : Source.Spells "?".toUTF8 "?" := .inr ⟨rfl, by decide⟩
  have hsenseless : Senseless smallGrammar "?".toUTF8 := .unrecognizable "?" hspells (by decide)
  have hfile : brokenFiles.root.at? ["src", "Broken.cs"] =
      some (.file "Broken.cs" "?".toUTF8) := rfl
  obtain ⟨-, -, hscans⟩ := senseless_files_isolated smallGrammar brokenFiles hwell rfl hfile
    hsenseless
  have hlocated : brokenFiles.locate "/src" = .ok ["src"] := by decide
  have htakes : Loader.Takes ⟨smallGrammar, []⟩ ["src"] (.directory "src" brokenEntries)
      ["Broken.cs"] "?" :=
    ⟨⟨"Broken.cs", _, rfl, hspells⟩, ⟨"Broken", "cs", by decide, by decide, by decide⟩, by decide,
      fun _ _ _ _ hg => absurd hg List.not_mem_nil⟩
  obtain ⟨-, hscan⟩ := hscans { settings := { excludedPaths := [] } } "/src"
  obtain ⟨r', hrun', hsame, -, hcounted⟩ := hscan _ (Scan.run_of_parseAll rfl)
  refine ⟨⟨hwell, hsenseless, hfile⟩, _, r', Scan.run_of_parseAll rfl, hrun', hsame, ?_⟩
  exact (hcounted "?" [] hspells rfl).1
    (.within ["src"] ["Broken.cs"] _ hlocated rfl rfl rfl htakes (by decide))

end CodeSmell
