import CodeSmell.Proofs.Facts.Numbers
import CodeSmell.Proofs.Syntax.Lines
import CodeSmell.Syntax.Record

/-!
# Where facts stand

* `Position.IsIn` : a position is on the line of its byte, so that positions that come one behind the
  other are on lines that do so (`line_le`);
* `Place.names` : the nodes that name what a place declares; `walk_positions` says that the declarations
  of a file begin where these do, from left to right;
* `Facts.declarations_isIn`, `usings_isIn`, `literals_isIn` : the facts of a file are on the lines of its
  text;
* `linedTree` : the tree of a small file of several lines.
-/

namespace CodeSmell

open Syntax

/-- A position is on the line of the text that its byte is on. -/
def Position.IsIn (p : Position) (text : String) : Prop :=
  p.line = lineAt (codes text) p.byte

theorem Position.IsIn.line_le {p q : Position} {text : String} (hp : p.IsIn text)
    (hq : q.IsIn text) (h : p.byte ≤ q.byte) : p.line ≤ q.line := by
  rw [hp, hq]
  exact lineAt_mono _ h

namespace Syntax

/-- The nodes that name what a place declares, in the order in which it is recorded. -/
def Place.names (v : Place) : List Node :=
  (v.node.introduced v.ancestors).map (·.site) ++ v.node.namespaceName?.toList

namespace Place

theorem map_position_declarations (v : Place) (here : Scope) :
    (v.declarations here).map (·.position) = v.names.map (·.position) := by
  have hintroduced : ((v.node.introduced v.ancestors).map (·.declaration here)).map (·.position) =
      ((v.node.introduced v.ancestors).map (·.site)).map (·.position) := by
    rw [List.map_map, List.map_map]
    rfl
  have hnamespace : (v.node.namespaceDeclaration? here.inNamespace).toList.map (·.position) =
      v.node.namespaceName?.toList.map (·.position) := by
    unfold Node.namespaceDeclaration?
    cases v.node.namespaceName? <;> rfl
  rw [declarations, names, List.map_append, List.map_append, hintroduced, hnamespace]

theorem holds_of_mem_names {v : Place} {m : Node} (h : m ∈ v.names) : v.Holds m := by
  rcases List.mem_append.mp h with hintroduced | hnamespace
  · obtain ⟨i, hi, rfl⟩ := List.mem_map.mp hintroduced
    exact holds_site hi
  · have hpart := mem_children_of_namespaceName? (Option.mem_toList.mp hnamespace)
    exact .of_part hpart (.self (v.part m))

end Place

end Syntax

/-- The declarations of a file begin where their names do, from left to right. -/
theorem Findings.walk_positions (root : Node) :
    (walk root).declarations.toList.map (·.position) =
      root.visible.flatMap fun v => v.names.map (·.position) := by
  refine walk_eq_flatMap (fun f => f.declarations.toList.map (·.position)) _ rfl (fun f p => ?_) root
  rw [visit_declarations, List.map_append, Place.map_position_declarations]

theorem Syntax.Node.position_of_literal? {n : Node} {l : NumericLiteral}
    (h : n.literal? = some l) : l.position = n.position := by
  unfold literal? at h
  split at h
  · rw [← Option.some.inj h]
  · obtain ⟨operand, -, rfl⟩ := Option.map_eq_some_iff.mp h
    rfl
  · cases h

theorem Syntax.Node.position_of_using? {n : Node} {u : UsingDirective} (h : n.using? = some u) :
    u.position = n.position := by
  unfold using? at h
  split at h
  · obtain ⟨target, -, rfl⟩ := Option.map_eq_some_iff.mp h
    rfl
  · cases h

namespace Facts

variable (path : String) {tree : Tree} {text : String} (h : tree.root.HasLinesOf text)
include h

theorem position_isIn {v : Place} (hv : v ∈ tree.root.visible) : v.node.position.IsIn text :=
  h v (Node.mem_places_of_mem_visible hv)

theorem declarations_isIn : ∀ d ∈ (ofTree path tree).declarations, d.position.IsIn text := by
  intro d hd
  have hmem : d.position ∈ tree.root.visible.flatMap fun v => v.names.map (·.position) := by
    rw [← Findings.walk_positions]
    exact List.mem_map_of_mem hd
  obtain ⟨v, hv, hname⟩ := List.mem_flatMap.mp hmem
  obtain ⟨m, hm, hposition⟩ := List.mem_map.mp hname
  obtain ⟨w, hw, rfl⟩ := Place.holds_of_mem_names hm
  rw [← hposition]
  exact h w (Node.within_subset_placesFrom (Node.mem_places_of_mem_visible hv) hw)

theorem usings_isIn : ∀ u ∈ (ofTree path tree).usings, u.position.IsIn text := by
  intro u hu
  have hmem : u ∈ tree.root.visible.flatMap (·.node.using?.toList) := by
    rw [← Findings.walk_usings]
    exact hu
  obtain ⟨v, hv, hwrites⟩ := List.mem_flatMap.mp hmem
  rw [Node.position_of_using? (Option.mem_toList.mp hwrites)]
  exact position_isIn h hv

theorem literals_isIn : ∀ l ∈ (ofTree path tree).literals, l.position.IsIn text := by
  intro l hl
  have hmem : l ∈ tree.root.visible.flatMap (·.node.literal?.toList) := by
    rw [← Findings.walk_literals]
    exact hl
  obtain ⟨v, hv, hwrites⟩ := List.mem_flatMap.mp hmem
  rw [Node.position_of_literal? (Option.mem_toList.mp hwrites)]
  exact position_isIn h hv

end Facts

/-! ## A file of several lines -/

/-- A class, and a namespace with a directive in front of another class. -/
def linedText : String :=
  "class B \x7b \x7d\nnamespace M \x7b\nusing System.Text;\nclass C \x7b int f = -7, g = 8; \x7d\n\x7d\n"

def linedTree : Tree :=
  (Tree.ofPreorder? linedText false
    [⟨0, "compilation_unit", true, none, 0, 78⟩,
      ⟨1, "class_declaration", true, none, 0, 11⟩,
        ⟨2, "class", false, none, 0, 5⟩,
        ⟨2, "identifier", true, some "name", 6, 7⟩,
        ⟨2, "declaration_list", true, some "body", 8, 11⟩,
          ⟨3, "\x7b", false, none, 8, 9⟩, ⟨3, "\x7d", false, none, 10, 11⟩,
      ⟨1, "namespace_declaration", true, none, 12, 77⟩,
        ⟨2, "namespace", false, none, 12, 21⟩,
        ⟨2, "identifier", true, some "name", 22, 23⟩,
        ⟨2, "declaration_list", true, some "body", 24, 77⟩,
          ⟨3, "\x7b", false, none, 24, 25⟩,
          ⟨3, "using_directive", true, none, 26, 44⟩,
            ⟨4, "using", false, none, 26, 31⟩,
            ⟨4, "qualified_name", true, none, 32, 43⟩,
              ⟨5, "identifier", true, some "qualifier", 32, 38⟩,
              ⟨5, ".", false, none, 38, 39⟩,
              ⟨5, "identifier", true, some "name", 39, 43⟩,
            ⟨4, ";", false, none, 43, 44⟩,
          ⟨3, "class_declaration", true, none, 45, 75⟩,
            ⟨4, "class", false, none, 45, 50⟩,
            ⟨4, "identifier", true, some "name", 51, 52⟩,
            ⟨4, "declaration_list", true, some "body", 53, 75⟩,
              ⟨5, "\x7b", false, none, 53, 54⟩,
              ⟨5, "field_declaration", true, none, 55, 73⟩,
                ⟨6, "variable_declaration", true, none, 55, 72⟩,
                  ⟨7, "predefined_type", true, some "type", 55, 58⟩,
                  ⟨7, "variable_declarator", true, none, 59, 65⟩,
                    ⟨8, "identifier", true, some "name", 59, 60⟩,
                    ⟨8, "=", false, none, 61, 62⟩,
                    ⟨8, "prefix_unary_expression", true, none, 63, 65⟩,
                      ⟨9, "-", false, none, 63, 64⟩, ⟨9, "integer_literal", true, none, 64, 65⟩,
                  ⟨7, ",", false, none, 65, 66⟩,
                  ⟨7, "variable_declarator", true, none, 67, 72⟩,
                    ⟨8, "identifier", true, some "name", 67, 68⟩,
                    ⟨8, "=", false, none, 69, 70⟩, ⟨8, "integer_literal", true, none, 71, 72⟩,
                ⟨6, ";", false, none, 72, 73⟩,
              ⟨5, "\x7d", false, none, 74, 75⟩,
          ⟨3, "\x7d", false, none, 76, 77⟩]).getD Tree.unrecognizable

end CodeSmell
