import CodeSmell.Proofs.FileSystem.Locate
import CodeSmell.Proofs.FileSystem.Walk
import CodeSmell.Proofs.Text.LastDot
import Mathlib.Data.List.Infix

/-!
# The files that a loader takes

* `Source.withoutMark_eq_iff`, `Source.text_eq_iff` : the text that a content stands for;
* `Language.isSome_ofPath?_ofNames` : the names that files of a known language have;
* `Loader.reached_iff` : the walk comes to a file if nothing on the way to it is left out;
* `Loader.Takes` : which files are taken from below a directory, said file by file;
* `directory_files_loaded` : loading a directory takes exactly these, in the order of their paths.
-/

namespace CodeSmell

/-! ## The text of a content -/

namespace Source

theorem toList_mark_append (text : String) :
    ("\ufeff" ++ text).toList = '\ufeff' :: text.toList := by
  rw [String.toList_append]
  rfl

theorem withoutMark_eq_iff {full text : String} :
    withoutMark full = text ↔
      full = "\ufeff" ++ text ∨ full = text ∧ text.toList.head? ≠ some '\ufeff' := by
  rw [withoutMark]
  split
  case h_1 rest hfull =>
    constructor
    · rintro rfl
      left
      rw [← String.toList_inj, toList_mark_append, hfull, String.toList_ofList]
    · rintro (rfl | ⟨rfl, hhead⟩)
      · rw [toList_mark_append] at hfull
        cases hfull
        exact String.ofList_toList
      · rw [hfull] at hhead
        exact absurd rfl hhead
  case h_2 hfull =>
    constructor
    · rintro rfl
      right
      refine ⟨rfl, fun hhead => ?_⟩
      obtain ⟨rest, hrest⟩ := List.head?_eq_some_iff.mp hhead
      exact hfull rest hrest
    · rintro (rfl | ⟨rfl, -⟩)
      · exact absurd (toList_mark_append text) (hfull _)
      · rfl

theorem fromUTF8?_eq_some_iff {content : ByteArray} {text : String} :
    String.fromUTF8? content = some text ↔ content = text.toUTF8 := by
  rw [String.fromUTF8?]
  split
  case isTrue hvalid =>
    rw [Option.some_inj, ← String.toByteArray_inj]
    rfl
  case isFalse hvalid =>
    constructor
    · intro h
      cases h
    · rintro rfl
      exact absurd text.isValidUTF8 hvalid

/-- The text of a content is what stands behind its byte order mark, or all of it without one. -/
theorem text_eq_iff {content : ByteArray} {text : String} :
    (String.fromUTF8? content).map withoutMark = some text ↔
      content = ("\ufeff" ++ text).toUTF8 ∨
        content = text.toUTF8 ∧ text.toList.head? ≠ some '\ufeff' := by
  simp only [Option.map_eq_some_iff, fromUTF8?_eq_some_iff, withoutMark_eq_iff]
  constructor
  · rintro ⟨full, rfl, rfl | ⟨rfl, hhead⟩⟩
    · exact .inl rfl
    · exact .inr ⟨rfl, hhead⟩
  · rintro (rfl | ⟨rfl, hhead⟩)
    · exact ⟨_, rfl, .inl rfl⟩
    · exact ⟨_, rfl, .inr ⟨rfl, hhead⟩⟩

end Source

def Entry.text? : Entry → Option String
  | file _ content => (String.fromUTF8? content).map Source.withoutMark
  | directory _ _ => none

theorem Entry.text?_eq_some_iff {e : Entry} {text : String} :
    e.text? = some text ↔ ∃ name content, e = file name content ∧
      (content = ("\ufeff" ++ text).toUTF8 ∨
        content = text.toUTF8 ∧ text.toList.head? ≠ some '\ufeff') := by
  cases e with
  | file name content =>
    rw [text?, Source.text_eq_iff]
    constructor
    · exact fun h => ⟨name, content, rfl, h⟩
    · rintro ⟨_, _, ⟨⟩, h⟩
      exact h
  | directory name entries => simp [text?]

/-! ## Files of a known language -/

namespace Language

theorem isSome_ofExtension? (extension : String) :
    (ofExtension? extension).isSome ↔ extension.toList.map Char.toLower = ['c', 's'] := by
  simp [ofExtension?]

theorem isSome_ofPath?_ofNames {names : List String} {name : String}
    (h : ∀ n ∈ names, Path.IsName n) (hlast : names.getLast? = some name) :
    (ofPath? (Path.ofNames names)).isSome ↔ ∃ stem extension, stem ≠ "" ∧
      name = stem ++ "." ++ extension ∧ extension.toList.map Char.toLower = ['c', 's'] := by
  have hextension : Path.extension? (Path.ofNames names) = Path.nameExtension? name := by
    rw [Path.extension?, Path.fileName?_ofNames h hlast, Option.bind_some]
  rw [ofPath?, hextension, Option.isSome_bind, Option.any_eq_true]
  constructor
  · rintro ⟨extension, hname, hknown⟩
    obtain ⟨stem, hstem, hsplit, -⟩ := Path.nameExtension?_eq_some_iff.mp hname
    exact ⟨stem, extension, hstem, hsplit, (isSome_ofExtension? _).mp hknown⟩
  · rintro ⟨stem, extension, hstem, hsplit, hknown⟩
    have hdot : '.' ∉ extension.toList := by
      intro hmem
      have hlower := List.mem_map_of_mem (f := Char.toLower) hmem
      rw [hknown] at hlower
      exact absurd hlower (by decide)
    refine ⟨extension, ?_, (isSome_ofExtension? _).mpr hknown⟩
    exact Path.nameExtension?_eq_some_iff.mpr ⟨stem, hstem, hsplit, hdot⟩

end Language

/-! ## What is on the way to a file -/

namespace Entry

/-- Before the last name on the way to something, each name is that of a directory. -/
theorem exists_directory_of_mem_dropLast {e c : Entry} {names : List String} {name : String}
    (h : e.at? names = some c) (hname : name ∈ names.dropLast) :
    ∃ front c', front ++ [name] <+: names ∧ e.at? (front ++ [name]) = some c' ∧
      c'.isDirectory = true := by
  obtain ⟨front, rest, hsplit⟩ := List.append_of_mem hname
  have hne : names ≠ [] := by
    rintro rfl
    cases hname
  have hnames : (front ++ [name]) ++ (rest ++ [names.getLast hne]) = names := by
    rw [← List.append_assoc, List.append_assoc front, List.singleton_append, ← hsplit,
      List.dropLast_append_getLast]
  rw [← hnames, at?_append, Option.bind_eq_some_iff] at h
  obtain ⟨c', hc', hrest⟩ := h
  exact ⟨front, c', ⟨_, hnames⟩, hc', isDirectory_of_at? (by simp) hrest⟩

/-- A directory on the way to a file is not what the last name stands for. -/
theorem mem_dropLast_of_isDirectory {e c : Entry} {front names : List String}
    {name file : String} {content : ByteArray} (h : e.at? names = some (.file file content))
    (hstart : front ++ [name] <+: names) (hc : e.at? (front ++ [name]) = some c)
    (hd : c.isDirectory = true) : name ∈ names.dropLast := by
  obtain ⟨rest, rfl⟩ := hstart
  have hrest : rest ≠ [] := by
    rintro rfl
    rw [List.append_nil, hc] at h
    cases h
    cases hd
  rw [List.dropLast_append_of_ne_nil hrest]
  simp

end Entry

namespace Loader

theorem keeps_iff {l : Loader} {base : String} {names : List String} {e : Entry} :
    l.keeps base names e = true ↔ (e.isDirectory = true → isSkipped e.name = false) ∧
      l.excludes base ("/".intercalate names) = false := by
  have hskip : (!(e.isDirectory && isSkipped e.name)) = true ↔
      (e.isDirectory = true → isSkipped e.name = false) := by
    cases e.isDirectory <;> simp
  rw [keeps, Bool.and_eq_true, hskip, Bool.not_eq_true']

theorem keeps_sorted (l : Loader) (base : String) (names : List String) (e : Entry) :
    l.keeps base names e.sorted = l.keeps base names e := by
  rw [keeps, keeps, Entry.isDirectory_sorted, Entry.name_sorted]

theorem isSkipped_eq_false_iff {name : String} :
    isSkipped name = false ↔
      name.toList.head? ≠ some '.' ∧ name ∉ ["bin", "obj", "node_modules", "packages"] := by
  simp [isSkipped, skippedNames]

theorem excludes_eq_false_iff {l : Loader} {above names : List String}
    (habove : ∀ name ∈ above, Path.IsName name) (hne : names ≠ [])
    (hnames : ∀ name ∈ names, Path.IsName name) :
    l.excludes (Path.ofNames above) ("/".intercalate names) = false ↔
      ∀ g ∈ l.excluded, g.admits ("/".intercalate names) = false ∧
        g.admits (Path.ofNames (above ++ names)) = false := by
  rw [excludes, Path.join_ofNames habove hne hnames, List.any_eq_false]
  simp

/-- A walk comes to a file if no directory on the way to it is skipped and no pattern takes the path
of the file or of one of them. -/
theorem reached_iff {l : Loader} {above names : List String} {d : Entry}
    (habove : ∀ name ∈ above, Path.IsName name) (hwell : d.WellFormed) :
    Entry.Reached (l.keeps (Path.ofNames above)) [] d names ↔
      (∃ name content, d.at? names = some (.file name content)) ∧
      (∀ name ∈ names.dropLast, isSkipped name = false) ∧
      ∀ front, front ≠ [] → front <+: names → ∀ g ∈ l.excluded,
        g.admits ("/".intercalate front) = false ∧
          g.admits (Path.ofNames (above ++ front)) = false := by
  have hfront : ∀ {file front}, d.at? names = some file → front <+: names →
      ∀ name ∈ front, Path.IsName name :=
    fun hat hstart name hname => hwell.isName_of_at? hat name (hstart.subset hname)
  constructor
  · rintro ⟨⟨file, content, hat⟩, hkept⟩
    refine ⟨⟨file, content, hat⟩, ?_, ?_⟩
    · intro name hname
      obtain ⟨front, c, hstart, hc, hdirectory⟩ :=
        Entry.exists_directory_of_mem_dropLast hat hname
      have hkeep := hkept (front ++ [name]) c (by simp) hstart hc
      rw [← hwell.name_of_at? hc]
      exact (keeps_iff.mp hkeep).1 hdirectory
    · intro front hne hstart
      have hnames := hfront hat hstart
      obtain ⟨rest, rfl⟩ := hstart
      have hway := hat
      rw [Entry.at?_append, Option.bind_eq_some_iff] at hway
      obtain ⟨c, hc, -⟩ := hway
      have hkeep := hkept front c hne ⟨rest, rfl⟩ hc
      exact (excludes_eq_false_iff habove hne hnames).mp (keeps_iff.mp hkeep).2
  · rintro ⟨⟨file, content, hat⟩, hentered, hadmitted⟩
    refine ⟨⟨file, content, hat⟩, ?_⟩
    intro front c hne hstart hc
    rw [List.nil_append, keeps_iff]
    constructor
    · intro hdirectory
      obtain hnil | ⟨init, name, rfl⟩ := List.eq_nil_or_concat' front
      · exact absurd hnil hne
      · rw [hwell.name_of_at? hc]
        exact hentered name (Entry.mem_dropLast_of_isDirectory hat hstart hc hdirectory)
    · exact (excludes_eq_false_iff habove hne (hfront hat hstart)).mpr (hadmitted front hne hstart)

/-! ## Which files are taken -/

/-- A loader takes the file at `names` below the directory `d`, which stands at `above`, for a
source with some text. -/
structure Takes (l : Loader) (above : List String) (d : Entry) (names : List String)
    (text : String) : Prop where
  /-- The file is this text in UTF-8, behind a byte order mark or, if the text does not begin with
  one itself, behind none. -/
  holds : ∃ name content, d.at? names = some (.file name content) ∧
    (content = ("\ufeff" ++ text).toUTF8 ∨
      content = text.toUTF8 ∧ text.toList.head? ≠ some '\ufeff')
  /-- Its extension is that of the language, in letters of either case. -/
  known : ∃ stem extension, stem ≠ "" ∧ names.getLast? = some (stem ++ "." ++ extension) ∧
    extension.toList.map Char.toLower = ['c', 's']
  /-- No directory on the way to it is hidden, or one of what is built or fetched. -/
  entered : ∀ name ∈ names.dropLast,
    name.toList.head? ≠ some '.' ∧ name ∉ ["bin", "obj", "node_modules", "packages"]
  /-- No pattern takes the path of the file, or of a directory on the way to it, be that seen from
  `d` or from the root. -/
  admitted : ∀ front, front ≠ [] → front <+: names → ∀ g ∈ l.excluded,
    g.admits ("/".intercalate front) = false ∧ g.admits (Path.ofNames (above ++ front)) = false

/-- The texts below a directory, with the names that lead to them, as a loader comes to them. -/
def textsBelow (l : Loader) (above : List String) (d : Entry) : List (List String × String) :=
  (l.filesToLoad (Path.ofNames above) d).filterMap fun names =>
    ((d.at? names).bind Entry.text?).map (names, ·)

section Below

variable {l : Loader} {above : List String} {d : Entry}
  (habove : ∀ name ∈ above, Path.IsName name) (hwell : d.WellFormed) (hd : d.isDirectory = true)
include habove hwell hd

theorem mem_filesToLoad_iff {names : List String} :
    names ∈ l.filesToLoad (Path.ofNames above) d ↔
      Entry.Reached (l.keeps (Path.ofNames above)) [] d names ∧
        ∃ stem extension, stem ≠ "" ∧ names.getLast? = some (stem ++ "." ++ extension) ∧
          extension.toList.map Char.toLower = ['c', 's'] := by
  have hwalk := Entry.sorted_filesBelow_perm (l.keeps_sorted (Path.ofNames above)) hwell
  rw [filesToLoad, List.mem_filter, hwalk.mem_iff, Entry.mem_filesBelow_iff hwell hd]
  apply and_congr_right
  intro hreached
  obtain ⟨file, content, hat⟩ := hreached.isFile
  have hnames := hwell.isName_of_at? hat
  have hne : names ≠ [] := by
    rintro rfl
    cases hat
    cases hd
  have hall : ∀ name ∈ above ++ names, Path.IsName name := by
    intro name hmem
    exact (List.mem_append.mp hmem).elim (habove name) (hnames name)
  have hlast : (above ++ names).getLast? = some (names.getLast hne) := by
    rw [List.getLast?_append, List.getLast?_eq_some_getLast hne]
    rfl
  rw [Path.join_ofNames habove hne hnames, Language.isSome_ofPath?_ofNames hall hlast,
    List.getLast?_eq_some_getLast hne]
  simp only [Option.some_inj]

theorem mem_textsBelow_iff {names : List String} {text : String} :
    (names, text) ∈ l.textsBelow above d ↔ l.Takes above d names text := by
  simp only [textsBelow, List.mem_filterMap, Option.map_eq_some_iff, Option.bind_eq_some_iff,
    Prod.mk.injEq, mem_filesToLoad_iff habove hwell hd, reached_iff habove hwell,
    isSkipped_eq_false_iff, Entry.text?_eq_some_iff]
  constructor
  · rintro ⟨_, ⟨⟨-, hentered, hadmitted⟩, hknown⟩, _, ⟨_, hat, name, content, rfl, htext⟩, rfl, rfl⟩
    exact ⟨⟨name, content, hat, htext⟩, hknown, hentered, hadmitted⟩
  · rintro ⟨⟨name, content, hat, htext⟩, hknown, hentered, hadmitted⟩
    exact ⟨names, ⟨⟨⟨name, content, hat⟩, hentered, hadmitted⟩, hknown⟩, text,
      ⟨_, hat, name, content, rfl, htext⟩, rfl, rfl⟩

end Below

theorem textsBelow_pairwise {l : Loader} {above : List String} {d : Entry} (hwell : d.WellFormed) :
    (l.textsBelow above d).Pairwise (·.1 < ·.1) := by
  have hwalk := Entry.sorted_filesBelow_pairwise (l.keeps_sorted (Path.ofNames above)) hwell
  apply (hwalk.filter _).filterMap
  intro names names' hlt found hfound found' hfound'
  obtain ⟨text, -, rfl⟩ := Option.map_eq_some_iff.mp hfound
  obtain ⟨text', -, rfl⟩ := Option.map_eq_some_iff.mp hfound'
  exact hlt

/-- A file is loaded by the absolute path made of the names that lead to it, if the system takes that
path. -/
theorem file?_ofNames {l : Loader} {fs : FileSystem} {names : List String} {e : Entry} (hne : names ≠ [])
    (hwell : fs.root.WellFormed) (hat : fs.root.at? names = some e) (hfile : e.isDirectory = false) :
    l.file? fs (Path.ofNames names) =
      if FileSystem.Admits (Path.ofNames names) then
        e.text?.map (Source.read l.grammar (Path.ofNames names))
      else none := by
  have hnames := hwell.isName_of_at? hat
  cases e with
  | directory name entries => cases hfile
  | file name content =>
    rw [file?]
    split
    next content' hread =>
      obtain ⟨there, name', hpath, hthere⟩ := FileSystem.read_eq_ok_iff.mp hread
      obtain rfl := FileSystem.eq_of_locate_ofNames hnames hpath
      obtain ⟨-, hadmits⟩ := (FileSystem.locate_ofNames_iff hne hnames).mp hpath
      obtain ⟨rfl, rfl⟩ : name = name' ∧ content = content' := by simpa [hat] using hthere
      rw [if_pos hadmits, FileSystem.absolute_of_locate hpath, Source.ofBytes?, Entry.text?,
        Option.map_map]
      rfl
    next fault hread =>
      rw [if_neg]
      intro hadmits
      have hpath := (FileSystem.locate_ofNames_iff hne hnames).mpr ⟨by rw [hat]; rfl, hadmits⟩
      rw [FileSystem.read_eq_ok_iff.mpr ⟨names, name, hpath, hat⟩] at hread
      cases hread

/-- The sources below a directory are made of the texts below it, save those in files whose paths the
system does not take. -/
theorem directory_eq {l : Loader} {fs : FileSystem} {path : String} {above : List String} {d : Entry}
    (hwell : fs.root.WellFormed) (hpath : fs.locate path = .ok above)
    (hat : fs.root.at? above = some d) (hd : d.isDirectory = true) :
    l.directory fs path =
      ((l.textsBelow above d).filter fun (names, _) =>
        FileSystem.Admits (Path.ofNames (above ++ names))).map fun (names, text) =>
          Source.read l.grammar (Path.ofNames (above ++ names)) text := by
  have habove := hwell.isName_of_at? hat
  have hbelow := hwell.of_at? hat
  have hentry := FileSystem.entry_of_locate hpath hat
  have hfiles : l.directory fs path = (l.filesToLoad (Path.ofNames above) d).filterMap fun names =>
      l.file? fs (Path.join (Path.ofNames above) ("/".intercalate names)) := by
    cases d with
    | file name content => cases hd
    | directory name entries => rw [directory, hentry, FileSystem.absolute_of_locate hpath]
  rw [hfiles, textsBelow, List.filter_filterMap, List.map_filterMap]
  apply List.filterMap_congr
  intro names hmem
  obtain ⟨⟨⟨name, content, hfile⟩, -⟩, -⟩ := (mem_filesToLoad_iff habove hbelow hd).mp hmem
  have hne : names ≠ [] := by
    rintro rfl
    cases hfile
    cases hd
  have hthere : fs.root.at? (above ++ names) = some (.file name content) := by
    rw [Entry.at?_append, hat]
    exact hfile
  rw [Path.join_ofNames habove hne (hbelow.isName_of_at? hfile),
    file?_ofNames (List.append_ne_nil_of_right_ne_nil above hne) hwell hthere rfl, hfile,
    Option.bind_some]
  cases (Entry.file name content).text? with
  | none => split <;> rfl
  | some text =>
    split
    next hadmits => simp [Option.filter, hadmits]
    next hrefused => simp [Option.filter, hrefused]

end Loader

open Loader in
/-- **Loading a directory takes exactly the files that `Takes` describes**, each of them once, and
in the order of the names that lead to them. What the directory itself is called does not matter. Each
file is read by its path, and is passed over if that is longer than a path may be on the system; where
the system takes the paths of all these files, all of them are loaded. -/
theorem directory_files_loaded (l : Loader) (fs : FileSystem) (path : String) {above : List String}
    {d : Entry} (hwell : fs.root.WellFormed) (hpath : fs.locate path = .ok above)
    (hat : fs.root.at? above = some d) (hd : d.isDirectory = true) :
    ∃ found : List (List String × String),
      found.Pairwise (·.1 < ·.1) ∧
      (∀ names text, (names, text) ∈ found ↔ l.Takes above d names text) ∧
      l.directory fs path =
        (found.filter fun (names, _) => FileSystem.Admits (Path.ofNames (above ++ names))).map
          (fun (names, text) => Source.read l.grammar (Path.ofNames (above ++ names)) text) ∧
      ((∀ names text, l.Takes above d names text →
          FileSystem.Admits (Path.ofNames (above ++ names))) →
        l.directory fs path = found.map fun (names, text) =>
          Source.read l.grammar (Path.ofNames (above ++ names)) text) := by
  have hbelow := hwell.of_at? hat
  have htaken : ∀ names text, (names, text) ∈ l.textsBelow above d ↔ l.Takes above d names text :=
    fun _ _ => mem_textsBelow_iff (hwell.isName_of_at? hat) hbelow hd
  have hsources := directory_eq (l := l) hwell hpath hat hd
  refine ⟨l.textsBelow above d, textsBelow_pairwise hbelow, htaken, hsources, fun hadmits => ?_⟩
  rw [hsources, List.filter_eq_self.mpr]
  rintro ⟨names, text⟩ hmem
  exact decide_eq_true (hadmits names text ((htaken names text).mp hmem))

/-- A source behind a byte order mark, one that a pattern leaves out, and one among what is
built. -/
def appEntries : List Entry :=
  [.directory "obj" [.file "C.cs" "class C {}".toUTF8],
    .directory "old" [.file "B.cs" "class B {}".toUTF8],
    .directory "lib" [.file "A.CS" ("\ufeff" ++ "class A {}").toUTF8]]

/-- A file system with these in a directory `app`. -/
def appFiles : FileSystem where
  root := .directory "" [.directory "app" appEntries]

/-- A loader that leaves out what is called `old`. -/
def oldExcluded : Loader where
  grammar := fun text => ⟨⟨"compilation_unit", true, none, 0, 0, 1, text, []⟩, false⟩
  excluded := [⟨[.char 'o', .char 'l', .char 'd']⟩]

/-- What is in `lib` is loaded, without its byte order mark. -/
theorem appFiles_loaded :
    ∃ s ∈ oldExcluded.directory appFiles "/app",
      s.path = "/app/lib/A.CS" ∧ s.text = "class A {}" := by
  have hwell : appFiles.root.WellFormed := by
    have hfile : ∀ name content, ∀ e ∈ [Entry.file name content], e.WellFormed := by
      intro name content e hmem
      rw [List.mem_singleton.mp hmem]
      exact .file name content
    have happ : ∀ e ∈ appEntries, e.WellFormed := by
      simp only [appEntries, List.forall_mem_cons]
      exact ⟨.directory _ _ (by decide) (by decide) (hfile _ _),
        .directory _ _ (by decide) (by decide) (hfile _ _),
        .directory _ _ (by decide) (by decide) (hfile _ _), by simp⟩
    refine .directory _ _ (by decide) (by decide) fun e hmem => ?_
    rw [List.mem_singleton.mp hmem]
    exact .directory _ _ (by decide) (by decide) happ
  have hpath : appFiles.locate "/app" = .ok ["app"] := by decide
  obtain ⟨found, -, hfound, hsources, -⟩ :=
    directory_files_loaded oldExcluded appFiles "/app" hwell hpath rfl rfl
  have htaken : oldExcluded.Takes ["app"] (.directory "app" appEntries) ["lib", "A.CS"]
      "class A {}" := by
    have hadmitted : ∀ front ∈ ["lib", "A.CS"].inits, front ≠ [] → ∀ g ∈ oldExcluded.excluded,
        g.admits ("/".intercalate front) = false ∧
          g.admits (Path.ofNames (["app"] ++ front)) = false := by decide
    exact ⟨⟨"A.CS", _, rfl, .inl rfl⟩, ⟨"A", "CS", by decide, by decide, by decide⟩, by decide,
      fun front hne hstart => hadmitted front ((List.mem_inits _ _).mpr hstart) hne⟩
  refine ⟨Source.read oldExcluded.grammar "/app/lib/A.CS" "class A {}", ?_, rfl, rfl⟩
  rw [hsources]
  exact List.mem_map_of_mem (List.mem_filter.mpr ⟨(hfound _ _).mpr htaken, by decide⟩)

end CodeSmell
