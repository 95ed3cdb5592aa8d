import CodeSmell.Proofs.Facts.Remarks

/-!
# Signs and comments

* `Place.written` : the literals that are recorded of what is visible of a tree; they stand together
  among those of the file;
* `Place.Signs` : a minus and a number, with nothing but comments besides;
* `written_of_no_comment`, `written_of_comment` : the number is recorded at its sign and with it if
  there are no comments, and alone if there are any;
* `signs_recorded` : what a sign adds to the literals and to the magic numbers of a file.
-/

namespace CodeSmell

open Syntax

namespace Syntax

def literalsOf (places : List Place) : List NumericLiteral :=
  places.flatMap (·.node.literal?.toList)

/-- The literals of a visible tree are its own and, unless it is closed, those of its parts. -/
theorem literalsOf_eq {n : Node} {around : List Node} (hopen : ∀ a ∈ around, a.isClosed = false) :
    literalsOf (n.visibleFrom around) =
      n.literal?.toList ++ if n.isClosed then [] else
        n.children.flatMap fun c => literalsOf (c.visibleFrom (n :: around)) := by
  rw [literalsOf, Node.visibleFrom_eq hopen, List.flatMap_cons]
  congr 1
  split
  · rfl
  · exact List.flatMap_assoc

theorem literalsOf_number {n : Node} {around : List Node}
    (hopen : ∀ a ∈ around, a.isClosed = false) (hnumber : n.isNumber = true) :
    literalsOf (n.visibleFrom around) = [⟨n.text, n.position⟩] := by
  have hclosed : n.isClosed = true := by
    rw [Node.isClosed, Node.isNumber_iff_construct.mp hnumber]
  rw [literalsOf_eq hopen, hclosed, if_pos rfl, Node.literal?_of_number hnumber]
  rfl

theorem literalsOf_no_parts {n : Node} {around : List Node}
    (hopen : ∀ a ∈ around, a.isClosed = false) (hnumber : n.isNumber = false)
    (hparts : n.children = []) : literalsOf (n.visibleFrom around) = [] := by
  have hnegated : n.negated? = none := by
    rw [Node.negated?, Node.namedChildren, hparts]
    rfl
  rw [literalsOf_eq hopen, hparts, List.flatMap_nil, ite_self,
    Node.literal?_eq_none hnumber fun _ => hnegated]
  rfl

namespace Place

/-- The literals that are recorded of what is visible of the tree at a place. -/
def written (v : Place) : List NumericLiteral :=
  literalsOf (v.node.visibleFrom v.ancestors)

/-- A minus in front of a number, with nothing but comments besides. -/
structure Signs (v : Place) (operand : Node) : Prop where
  prefixed : v.node.construct = .prefixed
  minus : v.node.children.head?.map (·.kind) = some "-"
  only : v.node.namedChildren.filter (·.kind != "comment") = [operand]
  number : operand.isNumber = true

/-- What a grammar promises of the parts of a node: tokens without a name are no numbers, and
neither they nor comments have parts. -/
structure Bare (v : Place) : Prop where
  no_parts_of_unnamed : ∀ c ∈ v.node.children, c.named = false → c.children = []
  no_parts_of_comment : ∀ c ∈ v.node.children, c.kind = "comment" → c.children = []
  named_of_number : ∀ c ∈ v.node.children, c.isNumber = true → c.named = true

namespace Signs

variable {v : Place} {operand : Node} (h : v.Signs operand)
  (hopen : ∀ a ∈ v.ancestors, a.isClosed = false)
include h hopen

theorem written_of_no_comment (hnone : ∀ c ∈ v.node.namedChildren, c.kind ≠ "comment") :
    v.written = [⟨"-" ++ operand.text, v.node.position⟩] := by
  have hnamed : v.node.namedChildren = [operand] := by
    rw [← h.only, List.filter_eq_self.mpr fun c hc => bne_iff_ne.mpr (hnone c hc)]
  have hnegated := Node.negated?_eq_some_iff.mpr ⟨hnamed, h.minus, h.number⟩
  have hclosed : v.node.isClosed = true := by
    rw [Node.isClosed, h.prefixed, hnegated]
    rfl
  rw [written, literalsOf_eq hopen, hclosed, if_pos rfl, Node.literal?_of_sign h.prefixed hnegated]
  rfl

theorem written_of_comment (hsome : ∃ c ∈ v.node.namedChildren, c.kind = "comment")
    (hbare : v.Bare) : v.written = [⟨operand.text, operand.position⟩] := by
  have hnegated : v.node.negated? = none := by
    refine Option.eq_none_iff_forall_ne_some.mpr fun number hnumber => ?_
    obtain ⟨hnamed, -, hnumber⟩ := Node.negated?_eq_some_iff.mp hnumber
    obtain ⟨c, hc, hkind⟩ := hsome
    rw [hnamed, List.mem_singleton] at hc
    rw [← hc, Node.isNumber, hkind] at hnumber
    cases hnumber
  have hclosed : v.node.isClosed = false := by
    rw [Node.isClosed, h.prefixed, hnegated]
    rfl
  have hopen' : ∀ a ∈ v.node :: v.ancestors, a.isClosed = false :=
    List.forall_mem_cons.mpr ⟨hclosed, hopen⟩
  have hnumber : v.node.isNumber = false := by
    rw [← Bool.not_eq_true, Node.isNumber_iff_construct, h.prefixed]
    decide
  have hself : v.node.literal? = none := Node.literal?_eq_none hnumber fun _ => hnegated
  -- the tokens and the comments write nothing
  have hother : ∀ c ∈ v.node.children, (c.kind != "comment" && c.named) = false →
      literalsOf (c.visibleFrom (v.node :: v.ancestors)) = [] := by
    intro c hc hcond
    rcases Bool.and_eq_false_iff.mp hcond with hcomment | hunnamed
    · have hkind : c.kind = "comment" := by simpa using hcomment
      refine literalsOf_no_parts hopen' ?_ (hbare.no_parts_of_comment c hc hkind)
      rw [Node.isNumber, hkind]
      rfl
    · refine literalsOf_no_parts hopen' ?_ (hbare.no_parts_of_unnamed c hc hunnamed)
      rw [← Bool.not_eq_true]
      intro hnumber
      rw [hbare.named_of_number c hc hnumber] at hunnamed
      cases hunnamed
  have honly := h.only
  rw [Node.namedChildren, List.filter_filter] at honly
  rw [written, literalsOf_eq hopen, hclosed, if_neg (by decide), hself,
    flatMap_eq_filter hother, honly, List.flatMap_singleton, literalsOf_number hopen' h.number]
  rfl

end Signs

end Place

end Syntax

def magicAmong (file : String) (literals : List NumericLiteral) : List MagicNumber :=
  (literals.filter fun l => !isCommonLiteral l.text).map fun l =>
    { value := l.text, file := file, line := l.position.line }

/-- **Numbers behind a minus.** What is recorded of a minus and a number with nothing but comments
besides is one literal. Without comments, this is the number with the sign, at the sign. With
comments, it is the number alone. The other literals and magic numbers of the file stand before it
and behind it. -/
theorem signs_recorded (path : String) (tree : Tree) {v : Place} {operand : Node}
    (hv : v ∈ tree.root.visible) (h : v.Signs operand) :
    (∃ before after,
      tree.root.visible = before ++ v.node.visibleFrom v.ancestors ++ after ∧
        (Facts.ofTree path tree).literals =
          literalsOf before ++ v.written ++ literalsOf after ∧
        (Facts.ofTree path tree).magicNumbers =
          magicAmong path (literalsOf before) ++ magicAmong path v.written ++
            magicAmong path (literalsOf after)) ∧
      ((∀ c ∈ v.node.namedChildren, c.kind ≠ "comment") →
        v.written = [⟨"-" ++ operand.text, v.node.position⟩]) ∧
      ((∃ c ∈ v.node.namedChildren, c.kind = "comment") → v.Bare →
        v.written = [⟨operand.text, operand.position⟩]) := by
  have hopen := (Node.mem_visible.mp hv).2
  refine ⟨?_, h.written_of_no_comment hopen, h.written_of_comment hopen⟩
  obtain ⟨before, after, hsplit⟩ := Node.visibleFrom_split (List.forall_mem_nil _) hv
  have hliterals : (Facts.ofTree path tree).literals =
      literalsOf before ++ v.written ++ literalsOf after := by
    refine (Findings.walk_literals tree.root).trans ?_
    rw [Node.visible, hsplit, List.flatMap_append, List.flatMap_append]
    rfl
  refine ⟨before, after, hsplit, hliterals, ?_⟩
  have hmagic : (Facts.ofTree path tree).magicNumbers =
      magicAmong path (Facts.ofTree path tree).literals := rfl
  rw [hmagic, hliterals]
  simp only [magicAmong, List.filter_append, List.map_append]

namespace Syntax.Node

def remark (start : Nat) (text : String) : Node :=
  ⟨"comment", true, none, start, start + text.length, 1, text, []⟩

/-- The statement `h(…);` with a sign in front of what stands there. -/
def signedArgument (start : Nat) (operand : List Node) (stop : Nat) : Node :=
  phrase "expression_statement" none
    [phrase "invocation_expression" none
      [word (some "function") start "h",
        phrase "argument_list" (some "arguments")
          [token (start + 1) "(",
            phrase "argument" none
              [phrase "prefix_unary_expression" none (token (start + 2) "-" :: operand)],
            token stop ")"]],
      token (stop + 1) ";"]

/-- The file `class C { void M() { h(-2); } }`. -/
def signedCall : Node :=
  classOfMethod [signedArgument 21 [integer 24 "2"] 25] 28

/-- The same file with the comment `/*c*/` between the sign and the number. -/
def remarkedCall : Node :=
  classOfMethod [signedArgument 21 [remark 24 "/*c*/", integer 29 "2"] 30] 33

end Syntax.Node

theorem remarkedCall_signs : Node.remarkedCall.visible[20].Signs (.integer 29 "2") :=
  ⟨by decide, by decide, rfl, by decide⟩

theorem calls_recorded :
    (∃ v ∈ Node.signedCall.visible, v.Signs (.integer 24 "2") ∧
        (∀ c ∈ v.node.namedChildren, c.kind ≠ "comment") ∧ v.written = [⟨"-2", 23, 1⟩]) ∧
      ∃ v ∈ Node.remarkedCall.visible, v.Signs (.integer 29 "2") ∧
        (∃ c ∈ v.node.namedChildren, c.kind = "comment") ∧ v.Bare ∧
          v.written = [⟨"2", 29, 1⟩] := by
  constructor
  · have hv : Node.signedCall.visible[20] ∈ Node.signedCall.visible := List.getElem_mem _
    have h : Node.signedCall.visible[20].Signs (.integer 24 "2") :=
      ⟨by decide, by decide, rfl, by decide⟩
    have hnone : ∀ c ∈ Node.signedCall.visible[20].node.namedChildren, c.kind ≠ "comment" := by
      decide
    obtain ⟨-, hwritten, -⟩ := signs_recorded "A.cs" ⟨Node.signedCall, false⟩ hv h
    exact ⟨_, hv, h, hnone, (hwritten hnone).trans (by decide)⟩
  · have hv : Node.remarkedCall.visible[20] ∈ Node.remarkedCall.visible := List.getElem_mem _
    have hsome : ∃ c ∈ Node.remarkedCall.visible[20].node.namedChildren, c.kind = "comment" := by
      decide
    have hbare : Node.remarkedCall.visible[20].Bare := ⟨by decide, by decide, by decide⟩
    obtain ⟨-, -, hwritten⟩ :=
      signs_recorded "A.cs" ⟨Node.remarkedCall, false⟩ hv remarkedCall_signs
    exact ⟨_, hv, remarkedCall_signs, hsome, hbare, (hwritten hsome hbare).trans (by decide)⟩

/-- A number that is recorded without the minus in front of it, and so is not reported. -/
theorem remarkedCall_unsigned :
    Node.remarkedCall.WellFormed ∧ Node.remarkedCall.PlainNumbers ∧
      (∃ v ∈ Node.remarkedCall.visible, v.Signs (.integer 29 "2") ∧ v.node.position = ⟨23, 1⟩) ∧
      isCommonLiteral "-2" = false ∧
      (Facts.ofTree "A.cs" ⟨Node.remarkedCall, false⟩).literals = [⟨"2", 29, 1⟩] ∧
      (Facts.ofTree "A.cs" ⟨Node.remarkedCall, false⟩).magicNumbers = [] := by
  have hv : Node.remarkedCall.visible[20] ∈ Node.remarkedCall.visible := List.getElem_mem _
  exact ⟨by decide +kernel, by decide +kernel, ⟨_, hv, remarkedCall_signs, by decide⟩,
    by decide +kernel, by decide, by decide +kernel⟩

end CodeSmell
