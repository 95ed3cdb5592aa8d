import CodeSmell.Proofs.Facts.Positions
import CodeSmell.Proofs.Project.Growth

/-!
# The order of a report of dead code

* `Suspect` : what a finding is about, a directive or a declaration;
* `Facts.suspects` : what the findings of a file are about, in the order of a report; `deadCode_eq_map`
  says that a report has one finding for each;
* `Facts.Lists` : to list each directive and each declaration of a file at most once, from left to right;
* `dead_code_in_source_order` : the report of a project lists the files one behind the other, and what
  it finds in a file in this way.
-/

namespace CodeSmell

open Syntax

/-- What a finding about dead code is about. -/
inductive Suspect
  | directive (u : UsingDirective)
  | declaration (d : Declaration)

namespace Suspect

def position : Suspect → Position
  | directive u => u.position
  | declaration d => d.position

def finding (file : String) : Suspect → DeadCode
  | directive u => u.finding file
  | declaration d => d.finding file

/-- The finding about it and the offset that it is reported at. -/
def located (file : String) (s : Suspect) : Facts.Located :=
  (s.position.byte, s.finding file)

theorem finding_file (file : String) (s : Suspect) : (s.finding file).file = file := by
  cases s <;> rfl

theorem finding_line (file : String) (s : Suspect) : (s.finding file).line = s.position.line := by
  cases s <;> rfl

end Suspect

namespace Facts

variable (f : Facts) (p : Project) (o : DeadCodeOptions)

/-- What is condemned in a file, directives first. -/
def condemned : List Suspect :=
  (f.condemnedImports p o).map .directive ++ (f.condemnedDeclarations p o).map .declaration

/-- What is condemned in a file, from left to right. -/
def suspects : List Suspect :=
  (f.condemned p o).mergeSort fun a b => a.position.byte ≤ b.position.byte

theorem map_located_condemned :
    (f.condemned p o).map (·.located f.path) = f.unusedImports p o ++ f.unreferenced p o := by
  rw [condemned, List.map_append, List.map_map, List.map_map]
  rfl

/-- A report has one finding for each suspect, in their order. -/
theorem deadCode_eq_map : f.deadCode p o = (f.suspects p o).map (·.finding f.path) := by
  have hsort : (f.suspects p o).map (·.located f.path) =
      ((f.condemned p o).map (·.located f.path)).mergeSort fun a b => a.1 ≤ b.1 :=
    List.map_mergeSort fun _ _ _ _ => rfl
  rw [deadCode, ← map_located_condemned, ← hsort, List.map_map]
  rfl

/-- To list some of the directives and of the declarations of a file, each of them at most once, by
where they stand in its text. -/
structure Lists (text : String) (listed : List Suspect) : Prop where
  once : ∃ (us : List UsingDirective) (ds : List Declaration), us.Sublist f.usings ∧
    ds.Sublist f.declarations ∧ listed.Perm (us.map .directive ++ ds.map .declaration)
  inText : ∀ s ∈ listed, s.position.IsIn text
  bytes : listed.Pairwise (·.position.byte ≤ ·.position.byte)
  lines : listed.Pairwise (·.position.line ≤ ·.position.line)

theorem suspects_pairwise :
    (f.suspects p o).Pairwise (·.position.byte ≤ ·.position.byte) := by
  have hsorted : (f.suspects p o).Pairwise fun a b =>
      decide (a.position.byte ≤ b.position.byte) = true :=
    List.pairwise_mergeSort
      (fun a b c => Located.trans (a.located f.path) (b.located f.path) (c.located f.path))
      (fun a b => Located.total (a.located f.path) (b.located f.path)) (f.condemned p o)
  exact hsorted.imp fun h => of_decide_eq_true h

theorem isIn_of_mem_suspects {path : String} {tree : Tree} {text : String}
    (h : tree.root.HasLinesOf text) {s : Suspect} (hs : s ∈ (ofTree path tree).suspects p o) :
    s.position.IsIn text := by
  rcases List.mem_append.mp (List.mem_mergeSort.mp hs) with himport | hdeclaration
  · obtain ⟨u, hu, rfl⟩ := List.mem_map.mp himport
    exact usings_isIn path h u (List.mem_of_mem_filter hu)
  · obtain ⟨d, hd, rfl⟩ := List.mem_map.mp hdeclaration
    exact declarations_isIn path h d (List.mem_of_mem_filter hd)

theorem lists_suspects (path : String) {tree : Tree} {text : String}
    (h : tree.root.HasLinesOf text) :
    (ofTree path tree).Lists text ((ofTree path tree).suspects p o) where
  once := ⟨_, _, List.filter_sublist, List.filter_sublist, List.mergeSort_perm _ _⟩
  inText := fun _ hs => isIn_of_mem_suspects p o h hs
  bytes := suspects_pairwise _ p o
  lines := (suspects_pairwise _ p o).imp_of_mem fun ha hb hbyte =>
    (isIn_of_mem_suspects p o h ha).line_le (isIn_of_mem_suspects p o h hb) hbyte

end Facts

/-- The report of a project lists the files one behind the other. What it finds in a file is, from
left to right and so from line to line, one finding for each of some directives and declarations: with
the path of the file, and with the line of the text that the directive or declaration is on. -/
theorem dead_code_in_source_order (grammar : Grammar) (files : List InputFile)
    (o : DeadCodeOptions)
    (h : ∀ file ∈ files, isAnalyzed grammar file = true →
      (grammar file.2).root.HasLinesOf file.2) :
    let p := Project.ofFiles grammar files
    let suspects := fun file => (factsIn grammar file).suspects p o
    let found : InputFile → List DeadCode := fun file => (suspects file).map (·.finding file.1)
    p.deadCode o = (files.filter (isAnalyzed grammar)).flatMap found ∧
      ∀ file ∈ files, isAnalyzed grammar file = true →
        (factsIn grammar file).Lists file.2 (suspects file) ∧
        (found file).Pairwise (·.line ≤ ·.line) ∧
        ∀ s ∈ suspects file, (s.finding file.1).file = file.1 ∧
          (s.finding file.1).line = lineAt (codes file.2) s.position.byte := by
  intro p suspects found
  constructor
  · rw [Project.deadCode, Project.ofFiles_files, List.flatMap_map]
    have hfound : (fun file => (factsIn grammar file).deadCode p o) = found :=
      funext fun file => Facts.deadCode_eq_map (factsIn grammar file) p o
    rw [hfound]
  · intro file hfile hanalyzed
    have hlists : (factsIn grammar file).Lists file.2 (suspects file) :=
      Facts.lists_suspects p o file.1 (h file hfile hanalyzed)
    refine ⟨hlists, ?_, fun s hs => ⟨s.finding_file file.1, ?_⟩⟩
    · refine List.pairwise_map.mpr (hlists.lines.imp fun {a b} hline => ?_)
      rw [a.finding_line, b.finding_line]
      exact hline
    · rw [s.finding_line]
      exact hlists.inText s hs

def linedGrammar : Grammar := fun text =>
  if text = linedText then linedTree else Tree.unrecognizable

/-- The file of several lines, once more under another path. -/
def linedFiles : List InputFile :=
  [("B.cs", linedText), ("A.cs", linedText), ("b.txt", linedText)]

/-- The directive is reported between the two classes, and `B.cs` in front of `A.cs`. -/
theorem linedFiles_in_source_order :
    let p := Project.ofFiles linedGrammar linedFiles
    let found : InputFile → List DeadCode := fun file =>
      ((factsIn linedGrammar file).suspects p {}).map (·.finding file.1)
    (∀ file ∈ linedFiles, isAnalyzed linedGrammar file = true →
        (linedGrammar file.2).root.HasLinesOf file.2) ∧
      p.deadCode {} = found ("B.cs", linedText) ++ found ("A.cs", linedText) ∧
      (found ("B.cs", linedText)).Pairwise (·.line ≤ ·.line) ∧
      (found ("B.cs", linedText)).Perm
        [⟨.unusedImport, "System.Text", "B.cs", 3⟩, ⟨.unreferencedDeclaration, "B", "B.cs", 1⟩,
          ⟨.unreferencedDeclaration, "C", "B.cs", 4⟩, ⟨.unreferencedDeclaration, "f", "B.cs", 4⟩,
          ⟨.unreferencedDeclaration, "g", "B.cs", 4⟩] := by
  intro p found
  have hlines : ∀ file ∈ linedFiles, isAnalyzed linedGrammar file = true →
      (linedGrammar file.2).root.HasLinesOf file.2 := by decide +kernel
  have hfiles : linedFiles.filter (isAnalyzed linedGrammar) =
      [("B.cs", linedText), ("A.cs", linedText)] := by decide +kernel
  obtain ⟨hreport, hfile⟩ := dead_code_in_source_order linedGrammar linedFiles {} hlines
  obtain ⟨-, hordered, -⟩ := hfile ("B.cs", linedText) List.mem_cons_self (by decide +kernel)
  refine ⟨hlines, ?_, hordered, ?_⟩
  · rw [hreport, hfiles, List.flatMap_cons, List.flatMap_cons, List.flatMap_nil, List.append_nil]
  · refine ((List.mergeSort_perm _ _).map _).trans (List.Perm.of_eq ?_)
    decide +kernel

end CodeSmell
