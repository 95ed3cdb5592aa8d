import CodeSmell.Check.MagicNumber
import CodeSmell.Proofs.Facts.Tour
import CodeSmell.Proofs.Syntax.WellFormed

/-!
# The numbers of a file

* `Node.numerals` : the numbers of a tree that stand in no directive and in no type parameter, each
  written at its sign if it has one (`Place.numeral`);
* `visible_literals` : what is looked at writes these numbers, each once and in their order, and no
  others;
* `numbers_recorded_once` : the literals and the magic numbers of a file. Those in a directive are left
  out, and so are those in the attributes of a type parameter (`attributedParameter_literals`).
-/

namespace CodeSmell

open Syntax

theorem flatMap_eq_filter {α β : Type} {l : List α} {p : α → Bool} {f : α → List β}
    (h : ∀ a ∈ l, p a = false → f a = []) : l.flatMap f = (l.filter p).flatMap f := by
  induction l with
  | nil => rfl
  | cons a rest ih =>
    obtain ⟨ha, hrest⟩ := List.forall_mem_cons.mp h
    rw [List.flatMap_cons, ih hrest, List.filter_cons]
    split
    · rw [List.flatMap_cons]
    · next hp => rw [ha (Bool.eq_false_iff.mpr hp), List.nil_append]

namespace Syntax

namespace Node

theorem negated?_eq_some_iff {n operand : Node} :
    n.negated? = some operand ↔
      n.namedChildren = [operand] ∧ n.children.head?.map (·.kind) = some "-" ∧
        operand.isNumber = true := by
  unfold negated?
  split
  · next only hnamed =>
    rw [hnamed, List.cons.injEq, and_iff_left rfl]
    constructor
    · intro h
      split at h
      · next hcond =>
        obtain rfl := Option.some.inj h
        simpa using hcond
      · cases h
    · rintro ⟨rfl, hminus, hnumber⟩
      rw [if_pos (by simp [hminus, hnumber])]
  · next hnamed =>
    refine iff_of_false nofun ?_
    rintro ⟨h, -⟩
    exact hnamed operand h

theorem isNumber_iff_construct {n : Node} : n.isNumber = true ↔ n.construct = .number := by
  constructor
  · intro h
    rcases Bool.or_eq_true_iff.mp h with hkind | hkind
    · rw [construct, eq_of_beq hkind]
      rfl
    · rw [construct, eq_of_beq hkind]
      rfl
  · intro h
    unfold construct Construct.ofKind at h
    split at h <;> cases h
    · next hkind => simp [isNumber, hkind]
    · next hkind => simp [isNumber, hkind]

/-- A word, which has no parts that count. -/
def isWord (n : Node) : Bool :=
  match n.construct with
  | .identifier | .number | .bareParameter => true
  | _ => false

/-- Whether the numbers in a node are passed over: those in a directive or in a type parameter. -/
def hidesNumbers (n : Node) : Bool :=
  match n.construct with
  | .usingDirective | .typeParameter => true
  | _ => false

theorem isClosed_cases {n : Node} (h : n.isClosed = true) :
    n.hidesNumbers = true ∨ n.isWord = true ∨
      n.construct = .prefixed ∧ ∃ operand, n.negated? = some operand := by
  unfold isClosed at h
  unfold hidesNumbers isWord
  split at h
  · next hc => simp [hc]
  · next hc => simp [hc]
  · next hc => simp [hc]
  · next hc => simp [hc]
  · next hc => simp [hc]
  · next hc => exact .inr (.inr ⟨hc, Option.isSome_iff_exists.mp h⟩)
  · cases h

end Node

namespace Place

/-- The sign of a number: the node around it that has nothing but a minus and the number. -/
def sign? (v : Place) : Option Node :=
  v.ancestors.head?.filter fun a => a.construct == .prefixed && a.negated?.isSome

/-- A number as it is written, at its sign if it has one. -/
def numeral (v : Place) : NumericLiteral :=
  match v.sign? with
  | some sign => ⟨"-" ++ v.node.text, sign.position⟩
  | none => ⟨v.node.text, v.node.position⟩

/-- Whether a place is a number outside of directives and type parameters. -/
def isNumeral (v : Place) : Bool :=
  v.node.isNumber && v.ancestors.all fun a => !a.hidesNumbers

/-- What a grammar promises of a place as far as numbers are concerned: tokens without a name have no
parts, a number has a name, and it stands in no other word. -/
structure Plain (v : Place) : Prop where
  no_parts_of_unnamed : v.node.named = false → v.node.children = []
  named_of_number : v.node.isNumber = true → v.node.named = true
  number_apart : v.node.isNumber = true → ∀ a ∈ v.ancestors, a.isWord = false

instance (v : Place) : Decidable v.Plain :=
  decidable_of_iff
    ((v.node.named = false → v.node.children = []) ∧
      (v.node.isNumber = true → v.node.named = true) ∧
      (v.node.isNumber = true → ∀ a ∈ v.ancestors, a.isWord = false))
    ⟨fun ⟨h₁, h₂, h₃⟩ => ⟨h₁, h₂, h₃⟩, fun ⟨h₁, h₂, h₃⟩ => ⟨h₁, h₂, h₃⟩⟩

end Place

namespace Node

def PlainNumbers (root : Node) : Prop :=
  ∀ v ∈ root.places, v.Plain

instance (root : Node) : Decidable root.PlainNumbers :=
  inferInstanceAs (Decidable (∀ v ∈ root.places, v.Plain))

/-- The numbers of a tree that stand in no directive and in no type parameter, from left to right. -/
def numerals (root : Node) : List Place :=
  root.places.filter (·.isNumeral)

/-! ## Numbers, node by node -/

/-- The numbers of a tree that stands inside the nodes `around`. -/
def numeralsFrom (around : List Node) (n : Node) : List Place :=
  (n.placesFrom around).filter (·.isNumeral)

theorem numeralsFrom_eq (around : List Node) (n : Node) :
    n.numeralsFrom around =
      (if Place.isNumeral ⟨n, around⟩ then [⟨n, around⟩] else []) ++
        n.children.flatMap (numeralsFrom (n :: around)) := by
  rw [numeralsFrom, placesFrom_eq, List.filter_cons, List.filter_flatMap]
  split <;> rfl

/-- There are no numbers in words, and those in directives and type parameters do not count. -/
theorem numeralsFrom_eq_nil {n : Node} {around : List Node}
    (hplain : ∀ v ∈ n.placesFrom around, v.Plain)
    (h : ∃ a ∈ around, a.hidesNumbers = true ∨ a.isWord = true) : n.numeralsFrom around = [] := by
  obtain ⟨a, ha, hsealed⟩ := h
  apply List.filter_eq_nil_iff.mpr
  intro v hv hnumeral
  obtain ⟨hnumber, hvisible⟩ := Bool.and_eq_true_iff.mp hnumeral
  have hmem := (suffix_ancestors hv).subset ha
  rcases hsealed with hhides | hword
  · have := List.all_eq_true.mp hvisible a hmem
    rw [hhides] at this
    cases this
  · have := (hplain v hv).number_apart hnumber a hmem
    rw [hword] at this
    cases this

theorem literal?_of_number {n : Node} (h : n.isNumber = true) :
    n.literal? = some ⟨n.text, n.position⟩ := by
  rw [literal?, isNumber_iff_construct.mp h]

theorem literal?_of_sign {n operand : Node} (hprefixed : n.construct = .prefixed)
    (h : n.negated? = some operand) : n.literal? = some ⟨"-" ++ operand.text, n.position⟩ := by
  rw [literal?, hprefixed, h]
  rfl

theorem literal?_eq_none {n : Node} (hnumber : n.isNumber = false)
    (hsign : n.construct = .prefixed → n.negated? = none) : n.literal? = none := by
  have hother : n.construct ≠ .number := fun h => by
    rw [isNumber_iff_construct.mpr h] at hnumber
    cases hnumber
  unfold literal?
  split
  · next h => exact absurd h hother
  · next h => rw [hsign h]; rfl
  · rfl

theorem hidesNumbers_of_open {n : Node} (h : n.isClosed = false) : n.hidesNumbers = false := by
  unfold isClosed at h
  unfold hidesNumbers
  cases hc : n.construct <;> rw [hc] at h <;> first | rfl | cases h

theorem isNumeral_of_open {n : Node} {around : List Node} (hnumber : n.isNumber = true)
    (h : ∀ a ∈ around, a.hidesNumbers = false) : Place.isNumeral ⟨n, around⟩ = true := by
  rw [Place.isNumeral, hnumber, Bool.true_and, List.all_eq_true]
  intro a ha
  rw [h a ha]
  rfl

/-- A number stands at its own place unless the node around it is its sign, which is closed. -/
theorem numeral_of_open {n : Node} {around : List Node} (h : ∀ a ∈ around, a.isClosed = false) :
    Place.numeral ⟨n, around⟩ = ⟨n.text, n.position⟩ := by
  have hsign : Place.sign? ⟨n, around⟩ = none := by
    cases around with
    | nil => rfl
    | cons a rest =>
      refine Option.filter_eq_none_iff.mpr fun b hb hsign => ?_
      obtain rfl := Option.some.inj hb
      obtain ⟨hprefixed, hnegated⟩ := Bool.and_eq_true_iff.mp hsign
      have hopen := h a List.mem_cons_self
      rw [isClosed, eq_of_beq hprefixed] at hopen
      exact absurd hnegated (Bool.eq_false_iff.mp hopen)
  rw [Place.numeral, hsign]

theorem numeralsFrom_of_unnamed {n : Node} {around : List Node}
    (hplain : Place.Plain ⟨n, around⟩) (h : n.named = false) : n.numeralsFrom around = [] := by
  have hnumber : n.isNumber = false := by
    rw [← Bool.not_eq_true]
    intro hnumber
    have hnamed : n.named = true := hplain.named_of_number hnumber
    rw [h] at hnamed
    cases hnamed
  have hparts : n.children = [] := hplain.no_parts_of_unnamed h
  rw [numeralsFrom_eq, hparts, Place.isNumeral, hnumber]
  rfl

/-- A visible node that is no sign writes a number if and only if it is one. -/
theorem literal?_of_open {n : Node} {around : List Node} (hopen : ∀ a ∈ around, a.isClosed = false)
    (hsign : n.construct = .prefixed → n.negated? = none) :
    n.literal?.toList =
      (if Place.isNumeral ⟨n, around⟩ then [Place.mk n around] else []).map (·.numeral) := by
  cases hnumber : n.isNumber with
  | true =>
    have hhides : ∀ a ∈ around, a.hidesNumbers = false :=
      fun a ha => hidesNumbers_of_open (hopen a ha)
    rw [literal?_of_number hnumber, if_pos (isNumeral_of_open hnumber hhides), List.map_singleton,
      numeral_of_open hopen]
    rfl
  | false =>
    rw [literal?_eq_none hnumber hsign, if_neg (by simp [Place.isNumeral, hnumber])]
    rfl

/-- The only number in a sign is the one that it signs. -/
theorem numerals_of_sign {n operand : Node} {around : List Node}
    (hprefixed : n.construct = .prefixed) (hnegated : n.negated? = some operand)
    (hplain : ∀ c ∈ n.children, ∀ v ∈ c.placesFrom (n :: around), v.Plain)
    (hopen : ∀ a ∈ around, a.isClosed = false) :
    n.children.flatMap (numeralsFrom (n :: around)) = [⟨operand, n :: around⟩] := by
  obtain ⟨hnamed, -, hnumber⟩ := negated?_eq_some_iff.mp hnegated
  have hmem : operand ∈ n.children := by
    apply List.mem_of_mem_filter (p := (·.named))
    rw [← namedChildren, hnamed]
    exact List.mem_singleton_self operand
  have hunnamed : ∀ c ∈ n.children, c.named = false → c.numeralsFrom (n :: around) = [] :=
    fun c hc => numeralsFrom_of_unnamed (hplain c hc _ (self_mem_placesFrom c _))
  have hhides : ∀ a ∈ n :: around, a.hidesNumbers = false :=
    List.forall_mem_cons.mpr
      ⟨by rw [hidesNumbers, hprefixed], fun a ha => hidesNumbers_of_open (hopen a ha)⟩
  have hword : operand.isWord = true := by
    rw [isWord, isNumber_iff_construct.mp hnumber]
  have hinside : operand.children.flatMap (numeralsFrom (operand :: n :: around)) = [] := by
    apply List.flatMap_eq_nil_iff.mpr
    intro c hc
    refine numeralsFrom_eq_nil (fun v hv => ?_) ⟨operand, List.mem_cons_self, .inr hword⟩
    exact hplain operand hmem v (mem_placesFrom.mpr (.inr ⟨c, hc, hv⟩))
  rw [flatMap_eq_filter hunnamed, ← namedChildren, hnamed, List.flatMap_singleton, numeralsFrom_eq,
    hinside, isNumeral_of_open hnumber hhides]
  rfl

/-- The numbers of a closed node are the one that it writes, if it writes any. -/
theorem literal?_of_closed {n : Node} {around : List Node}
    (hplain : ∀ v ∈ n.placesFrom around, v.Plain) (hopen : ∀ a ∈ around, a.isClosed = false)
    (hclosed : n.isClosed = true) :
    n.literal?.toList = (n.numeralsFrom around).map (·.numeral) := by
  have hpart : ∀ c ∈ n.children, ∀ v ∈ c.placesFrom (n :: around), v.Plain := fun c hc v hv =>
    hplain v (mem_placesFrom.mpr (.inr ⟨c, hc, hv⟩))
  -- a sealed node writes what it is itself, since nothing inside it counts
  have hsealed (h : n.hidesNumbers = true ∨ n.isWord = true) (hprefixed : n.construct ≠ .prefixed) :
      n.literal?.toList = (n.numeralsFrom around).map (·.numeral) := by
    have hinside : n.children.flatMap (numeralsFrom (n :: around)) = [] :=
      List.flatMap_eq_nil_iff.mpr fun c hc =>
        numeralsFrom_eq_nil (hpart c hc) ⟨n, List.mem_cons_self, h⟩
    rw [numeralsFrom_eq, hinside, List.append_nil,
      literal?_of_open hopen fun h => absurd h hprefixed]
  rcases isClosed_cases hclosed with hhides | hword | ⟨hprefixed, operand, hnegated⟩
  · refine hsealed (.inl hhides) fun hprefixed => ?_
    rw [hidesNumbers, hprefixed] at hhides
    cases hhides
  · refine hsealed (.inr hword) fun hprefixed => ?_
    rw [isWord, hprefixed] at hword
    cases hword
  · -- a sign writes the number behind it
    have hnumber : Place.isNumeral ⟨n, around⟩ = false := by
      rw [Place.isNumeral, Bool.and_eq_false_iff]
      left
      rw [← Bool.not_eq_true, isNumber_iff_construct, hprefixed]
      exact nofun
    have hsign : Place.sign? ⟨operand, n :: around⟩ = some n := by
      simp [Place.sign?, hprefixed, hnegated]
    rw [numeralsFrom_eq, hnumber, numerals_of_sign hprefixed hnegated hpart hopen,
      literal?_of_sign hprefixed hnegated, if_neg (by decide), List.nil_append,
      List.map_singleton, Place.numeral, hsign]
    rfl

/-- What is visible of a tree writes the numbers of the tree. -/
theorem visible_literals {n : Node} {around : List Node}
    (hplain : ∀ v ∈ n.placesFrom around, v.Plain) (hopen : ∀ a ∈ around, a.isClosed = false) :
    (n.visibleFrom around).flatMap (·.node.literal?.toList) =
      (n.numeralsFrom around).map (·.numeral) := by
  induction n using parts_induction generalizing around with
  | step n ih =>
    rw [visibleFrom_eq hopen, List.flatMap_cons]
    cases hclosed : n.isClosed with
    | true =>
      rw [if_pos rfl, List.flatMap_nil, List.append_nil, literal?_of_closed hplain hopen hclosed]
    | false =>
      have hsign : n.construct = .prefixed → n.negated? = none := by
        intro hprefixed
        rw [isClosed, hprefixed] at hclosed
        exact Option.isNone_iff_eq_none.mp (Option.isSome_eq_false_iff.mp hclosed)
      have hopen' : ∀ a ∈ n :: around, a.isClosed = false :=
        List.forall_mem_cons.mpr ⟨hclosed, hopen⟩
      rw [if_neg (by decide), numeralsFrom_eq, List.map_append, literal?_of_open hopen hsign,
        List.flatMap_assoc, List.map_flatMap]
      refine congrArg _ (List.flatMap_congr fun c hc => ih c hc (fun v hv => ?_) hopen')
      exact hplain v (mem_placesFrom.mpr (.inr ⟨c, hc, hv⟩))

end Node

end Syntax

/-! ## Literals and magic numbers -/

theorem Findings.walk_literals (root : Node) :
    (walk root).literals.toList = root.visible.flatMap (·.node.literal?.toList) :=
  walk_eq_flatMap (·.literals.toList) (·.node.literal?.toList) rfl
    (fun f p => by simp [visit, Pending.place]) root

theorem Facts.literals_ofTree (path : String) {tree : Tree} (h : tree.root.PlainNumbers) :
    (ofTree path tree).literals = tree.root.numerals.map (·.numeral) :=
  (Findings.walk_literals tree.root).trans (Node.visible_literals h (List.forall_mem_nil _))

def Syntax.Place.magicNumber (v : Place) (file : String) : MagicNumber :=
  ⟨v.numeral.text, file, v.numeral.position.line⟩

/-- **Numbers, each recorded once.** The literals of a file are its numbers from left to right,
wherever they stand except in a directive or in a type parameter: each on its own, or at its sign if it
has one, and nothing else. Its magic numbers are those of them that are not common. -/
theorem numbers_recorded_once (path : String) (tree : Tree) (h : tree.root.PlainNumbers) :
    (Facts.ofTree path tree).literals = tree.root.numerals.map (·.numeral) ∧
      (Facts.ofTree path tree).magicNumbers =
        (tree.root.numerals.filter fun v => !isCommonLiteral v.numeral.text).map
          (·.magicNumber path) := by
  have hliterals := Facts.literals_ofTree path h
  refine ⟨hliterals, ?_⟩
  rw [Facts.magicNumbers, hliterals, List.filter_map, List.map_map]
  rfl

namespace Syntax.Node

def integer (start : Nat) (text : String) : Node :=
  ⟨"integer_literal", true, none, start, start + text.length, 1, text, []⟩

/-- The attribute `[A(n)]`. -/
def attributeWith (start : Nat) (number : String) : Node :=
  let close := start + 3 + number.length
  phrase "attribute_list" none
    [token start "[",
      phrase "attribute" none
        [word (some "name") (start + 1) "A",
          phrase "attribute_argument_list" none
            [token (start + 2) "(",
              phrase "attribute_argument" none [integer (start + 3) number], token close ")"]],
      token (close + 1) "]"]

/-- The type parameters `<[A(n)] T>` with an `n` of two digits. -/
def attributedParameters (start : Nat) (number : String) : Node :=
  phrase "type_parameter_list" none
    [token start "<",
      phrase "type_parameter" none
        [attributeWith (start + 1) number, word (some "name") (start + 9) "T"],
      token (start + 10) ">"]

/-- The file `[A(7)] class C<[A(42)] T> { int x = -3; }`. -/
def signedField : Node :=
  phrase "compilation_unit" none
    [phrase "class_declaration" none
      [attributeWith 0 "7", token 7 "class", word (some "name") 13 "C", attributedParameters 14 "42",
        body 26
          [phrase "field_declaration" none
            [phrase "variable_declaration" none
              [predefinedType "type" 28 "int",
                phrase "variable_declarator" none
                  [word (some "name") 32 "x", token 34 "=",
                    phrase "prefix_unary_expression" none [token 36 "-", integer 37 "3"]]],
              token 38 ";"]]
          40]]

/-- The file `class C<[A(42)] T> { }`. -/
def attributedParameter : Node :=
  phrase "compilation_unit" none
    [phrase "class_declaration" none
      [token 0 "class", word (some "name") 6 "C", attributedParameters 7 "42", body 19 [] 21]]

end Syntax.Node

theorem signedField_literals :
    Node.signedField.PlainNumbers ∧
      (Facts.ofTree "C.cs" ⟨Node.signedField, false⟩).literals = [⟨"7", 3, 1⟩, ⟨"-3", 36, 1⟩] ∧
      (Facts.ofTree "C.cs" ⟨Node.signedField, false⟩).magicNumbers =
        [⟨"7", "C.cs", 1⟩, ⟨"-3", "C.cs", 1⟩] := by
  have hplain : Node.signedField.PlainNumbers := by decide +kernel
  obtain ⟨hliterals, hmagic⟩ := numbers_recorded_once "C.cs" ⟨Node.signedField, false⟩ hplain
  exact ⟨hplain, hliterals.trans (by decide), hmagic.trans (by decide +kernel)⟩

/-- A number in no directive that is not common, and is neither recorded nor reported. -/
theorem attributedParameter_literals :
    Node.attributedParameter.WellFormed ∧ Node.attributedParameter.PlainNumbers ∧
      (∃ v ∈ Node.attributedParameter.places, v.node.isNumber = true ∧ v.numeral = ⟨"42", 11, 1⟩ ∧
        isCommonLiteral v.numeral.text = false ∧
        ∀ a ∈ v.ancestors, a.construct ≠ .usingDirective) ∧
      (Facts.ofTree "A.cs" ⟨Node.attributedParameter, false⟩).literals = [] ∧
      (Facts.ofTree "A.cs" ⟨Node.attributedParameter, false⟩).magicNumbers = [] := by
  exact ⟨by decide +kernel, by decide +kernel, by decide +kernel, by decide, by decide⟩

end CodeSmell
