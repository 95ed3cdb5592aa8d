import CodeSmell.Proofs.Facts.Declarers
import CodeSmell.Proofs.Text.Run

/-!
# The names of attributes

* `attributeClass?_eq` : the class that an attribute may also stand for is read off what follows the
  last dot or colon of its name, up to an angle bracket;
* `Place.Denotes` : the simple name in a name, with what is written in front of it and behind it
  (`Denotes.compact_eq`);
* `attribute_class_referenced` : an attribute refers to the class that its name denotes, and to that
  with `Attribute` behind it if neither a dot nor a colon follows. Otherwise the second reference is
  made from what follows the last of these; and an attribute inside a type parameter refers to nothing
  (`attribute_class_missed`).
-/

namespace CodeSmell

open Syntax

/-! ## Texts of names -/

/-- Whether a character may stand in a simple name: dots and colons stand between names. -/
def isNamePart (c : Char) : Bool :=
  c != '.' && c != ':'

/-- A class name with `Attribute` behind it, unless it ends so. -/
def withAttribute? (stem : String) : Option String :=
  if stem.isEmpty || "Attribute".toList.isSuffixOf stem.toList then none
  else some (stem ++ "Attribute")

theorem withAttribute?_eq_some {stem : String} (hnonempty : stem ≠ "")
    (hsuffix : ¬ "Attribute".toList <:+ stem.toList) :
    withAttribute? stem = some (stem ++ "Attribute") := by
  rw [withAttribute?, if_neg]
  rw [Bool.or_eq_true, String.isEmpty_iff, List.isSuffixOf_iff_suffix]
  exact not_or_intro hnonempty hsuffix

/-- The second class is read off what follows the last dot or colon, up to an angle bracket. -/
theorem attributeClass?_eq {name : String} {front word rest : List Char}
    (hname : (Text.compact name).toList = front ++ (word ++ rest))
    (hfront : ∀ c ∈ front.getLast?, isNamePart c = false)
    (hword : ∀ c ∈ word, isNamePart c = true ∧ c ≠ '<')
    (hrest : ∀ c ∈ rest, isNamePart c = true) (hhead : ∀ c ∈ rest.head?, c = '<') :
    attributeClass? name = withAttribute? (symbolName (String.ofList word)) := by
  have hlast : ((Text.compact name).toList.reverse.takeWhile isNamePart).reverse = word ++ rest := by
    rw [hname, List.reverse_append, takeWhile_run, List.reverse_reverse]
    · intro c hc
      rcases List.mem_append.mp (List.mem_reverse.mp hc) with hc | hc
      · exact (hword c hc).1
      · exact hrest c hc
    · rw [List.head?_reverse]
      exact hfront
  have hstem : (word ++ rest).takeWhile (· != '<') = word :=
    takeWhile_run (fun c hc => bne_iff_ne.mpr (hword c hc).2) fun c hc => by
      rw [hhead c hc]
      rfl
  change withAttribute? (symbolName (String.ofList
    (((Text.compact name).toList.reverse.takeWhile isNamePart).reverse.takeWhile (· != '<')))) = _
  rw [hlast, hstem]

namespace Syntax

/-! ## Simple names -/

namespace Node

/-- What nodes write, without blanks. -/
def spelling (ns : List Node) : List Char :=
  ns.flatMap fun n => (Text.compact n.text).toList

/-- Nothing but blanks stands between the parts of a node. -/
def IsSpelled (n : Node) : Prop :=
  (Text.compact n.text).toList = spelling n.children

instance (n : Node) : Decidable n.IsSpelled :=
  inferInstanceAs (Decidable (_ = _))

/-- An identifier of characters that stand in a simple name. -/
structure IsSimpleName (n : Node) : Prop where
  word : n.isIdentifier = true
  unblank : ∀ c ∈ n.text.toList, Text.isBlank c = false
  undivided : ∀ c ∈ n.text.toList, isNamePart c = true ∧ c ≠ '<'
  nonempty : symbolName n.text ≠ ""

instance (n : Node) : Decidable n.IsSimpleName :=
  -- the letters of the name are looked through, not all the characters there are
  decidable_of_iff
    (n.isIdentifier = true ∧ n.text.toList.all (fun c => !Text.isBlank c) = true ∧
      n.text.toList.all (fun c => isNamePart c && c != '<') = true ∧ symbolName n.text ≠ "")
    (by
      simp only [List.all_eq_true, Bool.not_eq_true', Bool.and_eq_true, bne_iff_ne]
      exact ⟨fun ⟨h₁, h₂, h₃, h₄⟩ => ⟨h₁, h₂, h₃, h₄⟩, fun ⟨h₁, h₂, h₃, h₄⟩ => ⟨h₁, h₂, h₃, h₄⟩⟩)

end Node

namespace Place

/-- The simple name that a name ends in, with what is written in front of it and behind it. -/
inductive Denotes : Place → Place → List Char → List Char → Prop
  | word {v : Place} (simple : v.node.IsSimpleName) : Denotes v v [] []
  | generic {v : Place} {c : Node} {arguments : List Node} (kind : v.node.kind = "generic_name")
      (parts : v.node.children = c :: arguments) (spelled : v.node.IsSpelled)
      (simple : c.IsSimpleName) : Denotes v (v.part c) [] (Node.spelling arguments)
  | qualified {v w : Place} {c : Node} {qualifier : List Node} {front behind : List Char}
      (kind : v.node.kind = "qualified_name" ∨ v.node.kind = "alias_qualified_name")
      (parts : v.node.children = qualifier ++ [c]) (spelled : v.node.IsSpelled)
      (inner : Denotes (v.part c) w front behind) :
      Denotes v w (Node.spelling qualifier ++ front) behind

namespace Denotes

variable {v w : Place} {front behind : List Char}

theorem isSimpleName (h : v.Denotes w front behind) : w.node.IsSimpleName := by
  induction h with
  | word simple => exact simple
  | generic _ _ _ simple => exact simple
  | qualified _ _ _ _ ih => exact ih

/-- A name is what stands in front of its simple name, this, and what stands behind it. -/
theorem compact_eq (h : v.Denotes w front behind) :
    (Text.compact v.node.text).toList = front ++ (w.node.text.toList ++ behind) := by
  have hsimple {n : Node} (hn : n.IsSimpleName) : (Text.compact n.text).toList = n.text.toList := by
    rw [Text.toList_compact, List.filter_eq_self]
    exact fun c hc => by rw [hn.unblank c hc]; rfl
  induction h with
  | word simple => rw [hsimple simple, List.nil_append, List.append_nil]
  | generic _ parts spelled simple =>
    rw [spelled, parts, Node.spelling, List.flatMap_cons, hsimple simple, List.nil_append]
    rfl
  | qualified _ parts spelled _ ih =>
    rw [spelled, parts, Node.spelling, List.flatMap_append, List.flatMap_singleton, List.append_assoc]
    exact congrArg _ ih

/-- A node leads to the simple name in a name that is a part of it. -/
theorem leadsTo {u : Place} {name : Node} (hname : name ∈ u.node.children)
    (h : (u.part name).Denotes w front behind) : u.LeadsTo w := by
  generalize hv : u.part name = v at h
  induction h generalizing u name with
  | word => exact hv ▸ .part hname
  | generic kind parts =>
    subst hv
    have hkind : name.kind = "generic_name" := kind
    refine .of_part hname (by rw [Node.isLink, hkind]; decide) (.part (v := u.part name) ?_)
    exact parts ▸ List.mem_cons_self
  | @qualified _ _ c _ _ _ kind parts _ _ ih =>
    subst hv
    have hkind : name.kind = "qualified_name" ∨ name.kind = "alias_qualified_name" := kind
    have hlast : c ∈ (u.part name).node.children := by
      rw [parts]
      exact List.mem_append_right _ (List.mem_singleton_self c)
    refine .of_part hname ?_ (ih hlast rfl)
    rcases hkind with hkind | hkind
    · rw [Node.isLink, hkind]
      decide
    · rw [Node.isLink, hkind]
      decide

end Denotes

end Place

namespace Node

/-- An attribute declares nothing. -/
theorem not_declares_of_attributeUse {v w : Place} (h : v.node.construct = .attributeUse) :
    ¬ v.Declares w := by
  intro hdeclares
  cases hdeclares with
  | introduced i made => rw [introduced, h] at made; cases made
  | space name made => rw [namespaceName?, h] at made; cases made

theorem referencesIn_of_attributeUse (root : Node) {v : Place} {name : Node}
    (h : v.node.construct = .attributeUse) (hname : v.node.childByField? "name" = some name) :
    root.referencesIn v = ((attributeClass? name.text).map (⟨·, v.node.line⟩)).toList := by
  have hnot : ¬ v.node.isIdentifier = true := by
    intro hid
    cases h.symm.trans (construct_of_isIdentifier hid)
  rw [referencesIn, if_neg hnot, attributeReference?, if_pos (beq_iff_eq.mpr h), hname,
    Option.bind_some]

end Node

end Syntax

/-- **The classes of attributes.** A visible attribute refers to the class that its name denotes. Its second
reference is to this class with `Attribute` behind it, unless it ends so, if a dot or a colon stands right
in front of the simple name, or nothing, and right behind it type arguments without dots and colons, or
nothing. If a dot or a colon follows the simple name, the second reference is made from what stands behind
the last of these, up to an angle bracket. What is inside a type parameter is not visible. -/
theorem attribute_class_referenced (path : String) {tree : Tree} (h : tree.root.WellFormed)
    (hplain : tree.root.PlainNames) {v w : Place} {name : Node} {front behind : List Char}
    (hv : v ∈ tree.root.visible) (hattribute : v.node.construct = .attributeUse)
    (hname : v.node.childByField? "name" = some name)
    (hdenotes : (v.part name).Denotes w front behind) :
    (Facts.ofTree path tree).references = tree.root.visible.flatMap tree.root.referencesIn ∧
      (w ∈ tree.root.visible ∧ MerelyMentioned path tree w) ∧
      ((∀ c ∈ front.getLast?, isNamePart c = false) → (∀ c ∈ behind.head?, c = '<') →
        (∀ c ∈ behind, isNamePart c = true) →
          ¬ "Attribute".toList <:+ (symbolName w.node.text).toList →
            tree.root.referencesIn v = [⟨symbolName w.node.text ++ "Attribute", v.node.line⟩]) ∧
      (∀ before sep word rest, behind = before ++ sep :: (word ++ rest) → isNamePart sep = false →
        (∀ c ∈ word, isNamePart c = true ∧ c ≠ '<') → (∀ c ∈ rest, isNamePart c = true) →
          (∀ c ∈ rest.head?, c = '<') →
            tree.root.referencesIn v =
              ((withAttribute? (symbolName (String.ofList word))).map (⟨·, v.node.line⟩)).toList) ∧
      ∀ u ∈ tree.root.places, u.node.construct = .typeParameter →
        ∀ x ∈ u.inside, x ∉ tree.root.visible := by
  have hsimple := hdenotes.isSimpleName
  have hleads := hdenotes.leadsTo (Node.mem_children_of_childByField? hname)
  have hnotlink : v.node.isLink = false :=
    Node.isLink_eq_false (by rw [hattribute]; exact nofun)
  have hopen : v.node.isClosed = false := by rw [Node.isClosed, hattribute]
  have hw := Node.mem_visible_of_leadsTo hv hopen hleads
  have hsecond := Node.referencesIn_of_attributeUse tree.root hattribute hname
  have htext : (Text.compact name.text).toList = front ++ (w.node.text.toList ++ behind) :=
    hdenotes.compact_eq
  refine ⟨h.references_ofTree, ⟨hw, ?_⟩, fun hfront hhead hbehind hsuffix => ?_,
    fun before sep word rest hsplit hsep hword hrest hhead => ?_, fun u _ hclosed x hx hvisible => ?_⟩
  · refine merelyMentioned_of_not_declares path h hplain hw hsimple.word fun u _ hu => ?_
    obtain rfl := hleads.eq_of_declares hnotlink hu hplain hw
    exact Node.not_declares_of_attributeUse hattribute hu
  · rw [hsecond, attributeClass?_eq htext hfront hsimple.undivided hbehind hhead,
      String.ofList_toList, withAttribute?_eq_some hsimple.nonempty hsuffix]
    rfl
  · have hall : (Text.compact name.text).toList =
        (front ++ (w.node.text.toList ++ before) ++ [sep]) ++ (word ++ rest) := by
      rw [htext, hsplit]
      simp only [List.append_assoc, List.singleton_append]
    have hlast : ∀ c ∈ (front ++ (w.node.text.toList ++ before) ++ [sep]).getLast?,
        isNamePart c = false := by
      rw [List.getLast?_concat]
      rintro _ ⟨⟩
      exact hsep
    rw [hsecond, attributeClass?_eq hall hlast hword hrest hhead]
  · exact Node.not_mem_inside_of_isClosed hvisible (by rw [Node.isClosed, hclosed]) hx

namespace Syntax.Node

/-- A type argument between angle brackets behind the name `Foo`. -/
def fooOf (start : Nat) (argument : Node) : Node :=
  phrase "generic_name" (some "name")
    [word none start "Foo",
      phrase "type_argument_list" none
        [token (start + 3) "<", argument, token argument.stop ">"]]

theorem denotes_fooOf (u : Place) (start : Nat) (argument : Node) {behind : List Char}
    (hspelled : (fooOf start argument).IsSpelled)
    (hbehind : spelling (fooOf start argument).children.tail = behind) :
    (u.part (fooOf start argument)).Denotes
      ((u.part (fooOf start argument)).part (word none start "Foo")) [] behind := by
  have hfoo : (word none 0 "Foo").IsSimpleName := by decide
  subst hbehind
  exact .generic rfl rfl hspelled ⟨hfoo.word, hfoo.unblank, hfoo.undivided, hfoo.nonempty⟩

def qualifiedFoo : Node :=
  phrase "qualified_name" (some "name")
    [word (some "qualifier") 1 "N", token 2 ".", fooOf 3 (word none 7 "B")]

theorem denotes_qualifiedFoo (u : Place) :
    (u.part qualifiedFoo).Denotes
      (((u.part qualifiedFoo).part (fooOf 3 (word none 7 "B"))).part (word none 3 "Foo"))
      ['N', '.'] ['<', 'B', '>'] := by
  have hfront : spelling [word (some "qualifier") 1 "N", token 2 "."] ++ [] = ['N', '.'] := by decide
  have hspelled : qualifiedFoo.IsSpelled := by decide
  exact hfront ▸ .qualified (.inl rfl) rfl hspelled
    (denotes_fooOf _ 3 (word none 7 "B") (by decide) (by decide))

/-- The name `Foo<A.B>`. -/
def dottedFoo : Node :=
  fooOf 1
    (phrase "qualified_name" none
      [word (some "qualifier") 5 "A", token 6 ".", word (some "name") 7 "B"])

theorem denotes_dottedFoo (u : Place) :
    (u.part dottedFoo).Denotes ((u.part dottedFoo).part (word none 1 "Foo")) []
      ['<', 'A', '.', 'B', '>'] :=
  denotes_fooOf u 1 _ (by decide) (by decide)

/-- The file `[…] class A { }` with one attribute that is a name. -/
def attributed (name : Node) : Node :=
  phrase "compilation_unit" none
    [phrase "class_declaration" none
      [phrase "attribute_list" none
        [token 0 "[", phrase "attribute" none [name], token name.stop "]"],
        token (name.stop + 2) "class", word (some "name") (name.stop + 8) "A",
        body (name.stop + 10) [] (name.stop + 12)]]

theorem attributed_plain {name : Node} (h : name = qualifiedFoo ∨ name = dottedFoo) :
    (attributed name).WellFormed ∧ (attributed name).PlainNames := by
  rcases h with rfl | rfl
  · decide +kernel
  · decide +kernel

theorem exists_attribute {name : Node} (h : name = qualifiedFoo ∨ name = dottedFoo) :
    ∃ v ∈ (attributed name).visible, v.node.construct = .attributeUse ∧
      v.node.childByField? "name" = some name := by
  rcases h with rfl | rfl
  · exact ⟨(attributed qualifiedFoo).visible[4], List.getElem_mem _, by decide, rfl⟩
  · exact ⟨(attributed dottedFoo).visible[4], List.getElem_mem _, by decide, rfl⟩

/-- The file `class A<[Attr] T> { }`. -/
def attrOnParameter : Node :=
  phrase "compilation_unit" none
    [phrase "class_declaration" none
      [token 0 "class", word (some "name") 6 "A",
        phrase "type_parameter_list" none
          [token 7 "<",
            phrase "type_parameter" none
              [phrase "attribute_list" none
                [token 8 "[", phrase "attribute" none [word (some "name") 9 "Attr"], token 13 "]"],
                word (some "name") 15 "T"],
            token 16 ">"],
        body 18 [] 20]]

end Syntax.Node

/-- The attribute of the first file refers to `FooAttribute`, that of the second to `B>Attribute`. -/
theorem attributes_recorded :
    ((Node.attributed Node.qualifiedFoo).WellFormed ∧
        (Node.attributed Node.qualifiedFoo).PlainNames) ∧
      (∃ v ∈ (Node.attributed Node.qualifiedFoo).visible, ∃ w, v.node.construct = .attributeUse ∧
        v.node.childByField? "name" = some Node.qualifiedFoo ∧
          (v.part Node.qualifiedFoo).Denotes w ['N', '.'] ['<', 'B', '>'] ∧ w.node.text = "Foo") ∧
      "FooAttribute" ∈
        (Facts.ofTree "A.cs" ⟨Node.attributed Node.qualifiedFoo, false⟩).references.map (·.name) ∧
      ((Node.attributed Node.dottedFoo).WellFormed ∧ (Node.attributed Node.dottedFoo).PlainNames) ∧
      (∃ v ∈ (Node.attributed Node.dottedFoo).visible, ∃ w, v.node.construct = .attributeUse ∧
        v.node.childByField? "name" = some Node.dottedFoo ∧
          (v.part Node.dottedFoo).Denotes w [] ['<', 'A', '.', 'B', '>'] ∧ w.node.text = "Foo") ∧
      "B>Attribute" ∈
        (Facts.ofTree "A.cs" ⟨Node.attributed Node.dottedFoo, false⟩).references.map (·.name) := by
  have hplain := Node.attributed_plain (.inl rfl)
  have hplain' := Node.attributed_plain (.inr rfl)
  have htree : (Tree.mk (Node.attributed Node.qualifiedFoo) false).root.WellFormed := hplain.1
  have htree' : (Tree.mk (Node.attributed Node.dottedFoo) false).root.WellFormed := hplain'.1
  obtain ⟨v, hv, hattribute, hname⟩ := Node.exists_attribute (.inl rfl)
  obtain ⟨v', hv', hattribute', hname'⟩ := Node.exists_attribute (.inr rfl)
  have hdenotes := Node.denotes_qualifiedFoo v
  have hdenotes' := Node.denotes_dottedFoo v'
  obtain ⟨hreferences, -, hsecond, -⟩ :=
    attribute_class_referenced "A.cs" htree hplain.2 hv hattribute hname hdenotes
  obtain ⟨hreferences', -, -, hdotted, -⟩ :=
    attribute_class_referenced "A.cs" htree' hplain'.2 hv' hattribute' hname' hdenotes'
  have hsuffix : ¬ "Attribute".toList <:+ (symbolName "Foo").toList := by decide
  have hfull : symbolName "Foo" ++ "Attribute" = "FooAttribute" := by decide
  have hclass := hsecond (by simp [isNamePart]) (by simp) (by simp [isNamePart]) hsuffix
  have hclass' := hdotted ['<', 'A'] '.' ['B', '>'] [] rfl (by decide) (by simp [isNamePart])
    (by simp) (by simp)
  refine ⟨hplain, ⟨v, hv, _, hattribute, hname, hdenotes, rfl⟩, ?_, hplain',
    ⟨v', hv', _, hattribute', hname', hdenotes', rfl⟩, ?_⟩
  · rw [hreferences, List.map_flatMap, List.mem_flatMap]
    exact ⟨v, hv, by rw [hclass]; exact List.mem_singleton.mpr hfull.symm⟩
  · rw [hreferences', List.map_flatMap, List.mem_flatMap]
    exact ⟨v', hv', by rw [hclass']; exact List.mem_singleton_self _⟩

/-- A class whose attribute has a dotted type argument is not found, and neither is that of an
attribute of a type parameter. -/
theorem attribute_class_missed :
    ((Node.attributed Node.dottedFoo).WellFormed ∧ (Node.attributed Node.dottedFoo).PlainNames) ∧
      (∃ v ∈ (Node.attributed Node.dottedFoo).visible, ∃ w, v.node.construct = .attributeUse ∧
        v.node.childByField? "name" = some Node.dottedFoo ∧
          (v.part Node.dottedFoo).Denotes w [] ['<', 'A', '.', 'B', '>'] ∧ w.node.text = "Foo") ∧
      (Facts.ofTree "A.cs" ⟨Node.attributed Node.dottedFoo, false⟩).references =
        [⟨"B>Attribute", 1⟩, ⟨"Foo", 1⟩, ⟨"A", 1⟩, ⟨"B", 1⟩] ∧
      (Node.attrOnParameter.WellFormed ∧ Node.attrOnParameter.PlainNames) ∧
      (∃ v ∈ Node.attrOnParameter.places, ∃ name w, v.node.construct = .attributeUse ∧
        v.node.childByField? "name" = some name ∧ (v.part name).Denotes w [] [] ∧
          w.node.text = "Attr") ∧
      (Facts.ofTree "A.cs" ⟨Node.attrOnParameter, false⟩).references = [] := by
  obtain ⟨v, hv, hattribute, hname⟩ := Node.exists_attribute (.inr rfl)
  have hattr : (Node.word (some "name") 9 "Attr").IsSimpleName := by decide
  have hplace : Node.attrOnParameter.places[9] ∈ Node.attrOnParameter.places := List.getElem_mem _
  exact ⟨Node.attributed_plain (.inr rfl),
    ⟨v, hv, _, hattribute, hname, Node.denotes_dottedFoo v, rfl⟩, by decide +kernel,
    by decide +kernel, ⟨_, hplace, _, _, by decide, rfl, .word hattr, rfl⟩, by decide +kernel⟩

end CodeSmell
