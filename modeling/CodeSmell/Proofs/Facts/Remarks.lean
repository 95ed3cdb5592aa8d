import CodeSmell.Proofs.Facts.Callables
import CodeSmell.Proofs.Facts.Numbers
import Mathlib.Data.Option.Basic

/-!
# Comments between the parts of a tree

* `Node.isRemark` : a comment or a line for the preprocessor, without parts and in no field;
* `Remarked` : a tree into which remarks have been put, anywhere between the parts of its nodes. What
  looks for a part by its field or kind finds the same one (`Interspersed.find?`), and what counts
  statements counts the same (`Interspersed.countP`);
* `Node.measure?` : the kind of callable that a node declares, and the number of statements in its
  body; remarks do not change it (`Remarked.measure?_eq`);
* `Node.measuresFrom` : the measures of the callables in a tree. Remarks may open a number that had
  only a sign in front of it, but inside there is nothing to measure (`Remarked.measuresFrom_eq`);
* `remarks_keep_long_methods` : the callables of a file and of a report stay the same.
-/

namespace CodeSmell

open Syntax

namespace Syntax

/-! ## Remarks -/

def isRemarkKind (kind : String) : Bool :=
  kind == "comment" || "preproc".toList.isPrefixOf kind.toList

/-- A comment or a line for the preprocessor, without parts and in no field. -/
def Node.isRemark (n : Node) : Bool :=
  isRemarkKind n.kind && n.field.isNone && n.children.isEmpty

/-- The nodes of the first list stand in the second one in their order, as `R` relates them, with
remarks between them. -/
inductive Interspersed (R : Node → Node → Prop) : List Node → List Node → Prop
  | nil : Interspersed R [] []
  | part {a b : Node} {as bs : List Node} (first : R a b) (rest : Interspersed R as bs) :
      Interspersed R (a :: as) (b :: bs)
  | remark {c : Node} {as bs : List Node} (first : c.isRemark = true)
      (rest : Interspersed R as bs) : Interspersed R as (c :: bs)

/-- The second tree is the first one with remarks put into it. Its nodes may have moved, and so be
spelled in another way. -/
inductive Remarked : Node → Node → Prop
  | intro {n m : Node} (kind : n.kind = m.kind) (named : n.named = m.named)
      (field : n.field = m.field) (parts : Interspersed Remarked n.children m.children) :
      Remarked n m

section Remark

variable {c : Node} (h : c.isRemark = true)
include h

theorem isRemarkKind_of_isRemark : isRemarkKind c.kind = true := by
  simp only [Node.isRemark, Bool.and_eq_true] at h
  exact h.1.1

theorem field_of_isRemark : c.field = none := by
  simp only [Node.isRemark, Bool.and_eq_true, Option.isNone_iff_eq_none] at h
  exact h.1.2

theorem children_of_isRemark : c.children = [] := by
  simp only [Node.isRemark, Bool.and_eq_true, List.isEmpty_iff] at h
  exact h.2

theorem not_isStatement_of_isRemark : c.isStatement = false := by
  rw [← Bool.not_eq_true, Node.isStatement_iff]
  rintro ⟨-, hcomment, hpreproc⟩
  have hkind := isRemarkKind_of_isRemark h
  simp only [isRemarkKind, Bool.or_eq_true, beq_iff_eq, List.isPrefixOf_iff_prefix] at hkind
  exact hkind.elim hcomment hpreproc

end Remark

theorem not_isRemark_of_kind {c : Node} (h : isRemarkKind c.kind = false) : ¬ c.isRemark = true := by
  intro hremark
  rw [isRemarkKind_of_isRemark hremark] at h
  cases h

theorem isRemarkKind_of_isNumber {c : Node} (h : c.isNumber = true) :
    isRemarkKind c.kind = false := by
  rcases Bool.or_eq_true_iff.mp h with hkind | hkind
  · rw [eq_of_beq hkind]
    rfl
  · rw [eq_of_beq hkind]
    rfl

/-! ## Looking through parts -/

namespace Interspersed

variable {R : Node → Node → Prop} {as bs : List Node} {p : Node → Bool}

theorem find? (h : Interspersed R as bs) (hpart : ∀ a b, R a b → p a = p b)
    (hremark : ∀ c, c.isRemark = true → p c = false) :
    Option.Rel R (as.find? p) (bs.find? p) := by
  induction h with
  | nil => exact .none
  | @part a b as bs first _ ih =>
    rw [List.find?_cons, List.find?_cons, hpart a b first]
    cases p b with
    | true => exact .some first
    | false => exact ih
  | @remark c as bs first _ ih =>
    rw [List.find?_cons, hremark c first]
    exact ih

theorem eq_nil (h : Interspersed R as []) : as = [] := by
  cases h
  rfl

theorem cons_inv {b : Node} (h : Interspersed R as (b :: bs)) (hb : ¬ b.isRemark = true) :
    ∃ a rest, as = a :: rest ∧ R a b ∧ Interspersed R rest bs := by
  cases h with
  | part first rest => exact ⟨_, _, rfl, first, rest⟩
  | remark first _ => exact absurd first hb

theorem countP (h : Interspersed R as bs) (hpart : ∀ a b, R a b → p a = p b)
    (hremark : ∀ c, c.isRemark = true → p c = false) : as.countP p = bs.countP p := by
  induction h with
  | nil => rfl
  | @part a b as bs first _ ih => rw [List.countP_cons, List.countP_cons, ih, hpart a b first]
  | @remark c as bs first _ ih =>
    rw [List.countP_cons_of_neg (by rw [hremark c first]; decide), ih]

theorem filter (h : Interspersed R as bs) (hpart : ∀ a b, R a b → p a = p b) :
    Interspersed R (as.filter p) (bs.filter p) := by
  induction h with
  | nil => exact .nil
  | @part a b as bs first _ ih =>
    rw [List.filter_cons, List.filter_cons, hpart a b first]
    split
    · exact .part first ih
    · exact ih
  | @remark c as bs first _ ih =>
    rw [List.filter_cons]
    split
    · exact .remark first ih
    · exact ih

theorem flatMap_eq {α : Type} (h : Interspersed R as bs) {f g : Node → List α}
    (hpart : ∀ a ∈ as, ∀ b, R a b → f a = g b) (hremark : ∀ c, c.isRemark = true → g c = []) :
    as.flatMap f = bs.flatMap g := by
  induction h with
  | nil => rfl
  | @part a b as bs first _ ih =>
    obtain ⟨ha, has⟩ := List.forall_mem_cons.mp hpart
    rw [List.flatMap_cons, List.flatMap_cons, ha b first, ih has]
  | @remark c as bs first _ ih =>
    rw [List.flatMap_cons, hremark c first, List.nil_append, ih hpart]

end Interspersed

theorem rel_orElse {α β : Type} {R : α → β → Prop} {o p : Option α} {o' p' : Option β}
    (h : Option.Rel R o o') (h' : Option.Rel R p p') : Option.Rel R (o <|> p) (o' <|> p') := by
  cases h with
  | none => exact h'
  | some hab => exact .some hab

/-! ## The measure of a callable -/

/-- The kind of callable that a node declares, and the number of statements in its body if it has
one. -/
def Node.measure? (n : Node) : Option (DeclarationKind × Option Nat) :=
  n.callableKind?.bind fun kind => n.callableSite?.map fun _ => (kind, n.statements?)

theorem Node.measure?_of_no_parts {n : Node} (h : n.children = []) : n.measure? = none := by
  have hsite : n.callableSite? = none := by
    unfold callableSite? childOfKind? childByField?
    rw [h]
    split <;> rfl
  rw [measure?, hsite]
  cases n.callableKind? <;> rfl

namespace Remarked

variable {n m : Node} (h : Remarked n m)
include h

theorem kind_eq : n.kind = m.kind := by
  cases h
  assumption

theorem named_eq : n.named = m.named := by
  cases h
  assumption

theorem field_eq : n.field = m.field := by
  cases h
  assumption

theorem parts : Interspersed Remarked n.children m.children := by
  cases h
  assumption

theorem construct_eq : n.construct = m.construct := by
  rw [Node.construct, h.kind_eq]
  rfl

theorem isStatement_eq : n.isStatement = m.isStatement := by
  rw [Node.isStatement, h.kind_eq, h.named_eq]
  rfl

theorem childByField? (field : String) :
    Option.Rel Remarked (n.childByField? field) (m.childByField? field) :=
  h.parts.find? (fun _ _ hab => by rw [hab.field_eq])
    fun c hc => by rw [field_of_isRemark hc]; rfl

theorem findKind {p : String → Bool} (hp : ∀ kind, isRemarkKind kind = true → p kind = false) :
    Option.Rel Remarked (n.children.find? (p ·.kind)) (m.children.find? (p ·.kind)) :=
  h.parts.find? (fun _ _ hab => by rw [hab.kind_eq]) fun c hc => hp _ (isRemarkKind_of_isRemark hc)

theorem callableKind?_eq : n.callableKind? = m.callableKind? := by
  rw [Node.callableKind?, h.construct_eq]
  rfl

theorem callableSite? : Option.Rel Remarked n.callableSite? m.callableSite? := by
  have hwords : ∀ word ∈ Node.accessorWords, isRemarkKind word = false := by decide
  have hword := rel_orElse (h.childByField? "name")
    (h.findKind (p := Node.accessorWords.contains) fun kind hkind => by
      rw [← Bool.not_eq_true, List.contains_iff_mem]
      intro hmem
      rw [hwords kind hmem] at hkind
      cases hkind)
  have hkeyword := h.findKind (p := (· == "operator")) fun kind hkind => by
    rw [beq_eq_false_iff_ne]
    rintro rfl
    cases hkind
  unfold Node.callableSite?
  rw [h.construct_eq]
  split
  · exact hkeyword
  · exact hkeyword
  · exact hword
  · exact h.childByField? "name"

theorem body? : Option.Rel Remarked n.body? m.body? := by
  refine rel_orElse (h.childByField? "body")
    (h.findKind (p := fun kind => kind == "block" || kind == "arrow_expression_clause") ?_)
  intro kind hkind
  rw [Bool.or_eq_false_iff, beq_eq_false_iff_ne, beq_eq_false_iff_ne]
  constructor
  · rintro rfl
    cases hkind
  · rintro rfl
    cases hkind

theorem statements?_eq : n.statements? = m.statements? := by
  have hbody := h.body?
  unfold Node.statements?
  generalize n.body? = found at hbody ⊢
  generalize m.body? = found' at hbody ⊢
  cases hbody with
  | none => rfl
  | @some body body' hbody =>
    have hcount : body.children.countP Node.isStatement = body'.children.countP Node.isStatement :=
      hbody.parts.countP (fun _ _ hab => hab.isStatement_eq)
        fun _ hc => not_isStatement_of_isRemark hc
    dsimp only
    rw [hbody.kind_eq, hcount]

theorem measure?_eq : n.measure? = m.measure? := by
  have hsite := h.callableSite?
  rw [Node.measure?, Node.measure?, h.callableKind?_eq, h.statements?_eq]
  generalize n.callableSite? = found at hsite ⊢
  generalize m.callableSite? = found' at hsite ⊢
  cases hsite with
  | none => rfl
  | some _ => rfl

/-! ## Signed numbers -/

/-- A number that has only a sign in front of it has nothing else there without the remarks. -/
theorem isSome_negated? (hm : m.negated?.isSome = true) : n.negated?.isSome = true := by
  obtain ⟨operand', hnegated⟩ := Option.isSome_iff_exists.mp hm
  obtain ⟨hnamed', hminus', hnumber'⟩ := Node.negated?_eq_some_iff.mp hnegated
  have hnamed : Interspersed Remarked n.namedChildren m.namedChildren :=
    h.parts.filter fun _ _ hab => by rw [hab.named_eq]
  rw [hnamed'] at hnamed
  obtain ⟨operand, rest, hrest, hoperand, hnone⟩ :=
    hnamed.cons_inv (not_isRemark_of_kind (isRemarkKind_of_isNumber hnumber'))
  obtain ⟨sign', hhead', hsign'⟩ := Option.map_eq_some_iff.mp hminus'
  obtain ⟨behind', hparts'⟩ := List.head?_eq_some_iff.mp hhead'
  have hparts := h.parts
  rw [hparts'] at hparts
  obtain ⟨sign, behind, hbehind, hsign, -⟩ :=
    hparts.cons_inv (not_isRemark_of_kind (by rw [hsign']; rfl))
  have hnumber : operand.isNumber = true := by
    rw [Node.isNumber, hoperand.kind_eq]
    exact hnumber'
  refine Option.isSome_iff_exists.mpr ⟨operand, Node.negated?_eq_some_iff.mpr ⟨?_, ?_, hnumber⟩⟩
  · rw [hrest, hnone.eq_nil]
  · rw [hbehind, List.head?_cons, Option.map_some, hsign.kind_eq, hsign']

theorem isClosed_eq (hm : m.construct ≠ .prefixed) : n.isClosed = m.isClosed := by
  unfold Node.isClosed
  rw [h.construct_eq]
  cases hc : m.construct <;> first | rfl | exact absurd hc hm

theorem isClosed_of_isClosed (hm : m.isClosed = true) : n.isClosed = true := by
  by_cases hc : m.construct = .prefixed
  · rw [Node.isClosed, hc] at hm
    rw [Node.isClosed, h.construct_eq, hc]
    exact h.isSome_negated? hm
  · rw [h.isClosed_eq hc, hm]

/-- Remarks open nothing but a number that had only a sign in front of it. -/
theorem negated?_of_isClosed (hn : n.isClosed = true) (hm : m.isClosed = false) :
    n.negated?.isSome = true := by
  by_cases hc : m.construct = .prefixed
  · rw [Node.isClosed, h.construct_eq, hc] at hn
    exact hn
  · rw [h.isClosed_eq hc, hm] at hn
    cases hn

end Remarked

/-! ## The callables of a tree -/

namespace Node

/-- A tree in which the tokens that a number is signed with have no parts. A well-formed tree has no
parts in any token (`WellFormed.signsBare`). -/
def SignsBare (root : Node) : Prop :=
  ∀ v ∈ root.places, v.node.negated?.isSome = true →
    ∀ c ∈ v.node.children, c.named = false → c.children = []

instance (root : Node) : Decidable root.SignsBare :=
  inferInstanceAs (Decidable (∀ v ∈ root.places, _ → _))

theorem WellFormed.signsBare {root : Node} (h : root.WellFormed) : root.SignsBare :=
  fun _ hv _ _ hc hname => (h.regular (part_mem_places hv hc)).no_parts_of_unnamed hname

/-- The measures of the callables in a tree that stands inside the nodes `around`. -/
def measuresFrom (around : List Node) (n : Node) : List (DeclarationKind × Option Nat) :=
  (n.visibleFrom around).filterMap (·.node.measure?)

theorem measuresFrom_eq {n : Node} {around : List Node} (h : ∀ a ∈ around, a.isClosed = false) :
    n.measuresFrom around =
      n.measure?.toList ++
        if n.isClosed then [] else n.children.flatMap (measuresFrom (n :: around)) := by
  rw [measuresFrom, visibleFrom_eq h, List.filterMap_eq_flatMap_toList, List.flatMap_cons]
  congr 1
  split
  · rfl
  · rw [List.flatMap_assoc]
    refine List.flatMap_congr fun c _ => ?_
    rw [measuresFrom, List.filterMap_eq_flatMap_toList]

theorem measuresFrom_of_no_parts {n : Node} {around : List Node}
    (h : ∀ a ∈ around, a.isClosed = false) (hparts : n.children = []) :
    n.measuresFrom around = [] := by
  rw [measuresFrom_eq h, measure?_of_no_parts hparts, hparts, List.flatMap_nil, ite_self]
  rfl

theorem measuresFrom_of_number {n : Node} {around : List Node}
    (h : ∀ a ∈ around, a.isClosed = false) (hnumber : n.isNumber = true) :
    n.measuresFrom around = [] := by
  have hconstruct := isNumber_iff_construct.mp hnumber
  have hclosed : n.isClosed = true := by rw [isClosed, hconstruct]
  have hmeasure : n.measure? = none := by
    rw [measure?, callableKind?, hconstruct]
    rfl
  rw [measuresFrom_eq h, hmeasure, if_pos hclosed]
  rfl

/-- There is nothing to measure in a number with only a sign in front of it. -/
theorem measuresFrom_of_negated {n c : Node} (hnegated : n.negated?.isSome = true)
    (hbare : ∀ c ∈ n.children, c.named = false → c.children = []) (hc : c ∈ n.children) :
    c.measuresFrom [] = [] := by
  obtain ⟨operand, hoperand⟩ := Option.isSome_iff_exists.mp hnegated
  obtain ⟨hnamed, -, hnumber⟩ := negated?_eq_some_iff.mp hoperand
  cases hname : c.named with
  | false => exact measuresFrom_of_no_parts (List.forall_mem_nil _) (hbare c hc hname)
  | true =>
    have hmem : c ∈ n.namedChildren := List.mem_filter.mpr ⟨hc, hname⟩
    rw [hnamed] at hmem
    obtain rfl := List.mem_singleton.mp hmem
    exact measuresFrom_of_number (List.forall_mem_nil _) hnumber

end Node

/-- Remarks do not change what there is to measure in a tree. -/
theorem Remarked.measuresFrom_eq {n m : Node} {outer around around' : List Node}
    (h : Remarked n m) (hn : ∀ a ∈ around, a.isClosed = false)
    (hm : ∀ a ∈ around', a.isClosed = false)
    (hbare : ∀ v ∈ n.placesFrom outer, v.node.negated?.isSome = true →
      ∀ c ∈ v.node.children, c.named = false → c.children = []) :
    n.measuresFrom around = m.measuresFrom around' := by
  induction n using Node.parts_induction generalizing m outer around around' with
  | step n ih =>
    have hpart : ∀ c ∈ n.children, ∀ v ∈ c.placesFrom (n :: outer), v.node.negated?.isSome = true →
        ∀ d ∈ v.node.children, d.named = false → d.children = [] := fun c hc v hv =>
      hbare v (Node.mem_placesFrom.mpr (.inr ⟨c, hc, hv⟩))
    rw [Node.measuresFrom_eq hn, Node.measuresFrom_eq hm, h.measure?_eq]
    congr 1
    cases hmclosed : m.isClosed with
    | true => rw [if_pos (h.isClosed_of_isClosed hmclosed), if_pos rfl]
    | false =>
      have hm' : ∀ a ∈ m :: around', a.isClosed = false := List.forall_mem_cons.mpr ⟨hmclosed, hm⟩
      have hremark : ∀ c : Node, c.isRemark = true → c.measuresFrom (m :: around') = [] :=
        fun c hc => Node.measuresFrom_of_no_parts hm' (children_of_isRemark hc)
      rw [if_neg (by decide : ¬ false = true)]
      cases hnclosed : n.isClosed with
      | false =>
        have hn' : ∀ a ∈ n :: around, a.isClosed = false := List.forall_mem_cons.mpr ⟨hnclosed, hn⟩
        rw [if_neg (by decide)]
        exact h.parts.flatMap_eq (fun a ha b hab => ih a ha hab hn' hm' (hpart a ha)) hremark
      | true =>
        -- the remarks stand between a sign and its number, which is now looked at on its own
        have hnegated := h.negated?_of_isClosed hnclosed hmclosed
        have hbareHere := hbare _ (Node.self_mem_placesFrom n outer) hnegated
        have hnothing : n.children.flatMap (fun _ => []) =
            m.children.flatMap (Node.measuresFrom (m :: around')) := by
          refine h.parts.flatMap_eq (fun a ha b hab => ?_) hremark
          rw [← ih a ha hab (List.forall_mem_nil _) hm' (hpart a ha),
            Node.measuresFrom_of_negated hnegated hbareHere ha]
        rw [if_pos rfl, ← hnothing, List.flatMap_eq_nil_iff.mpr fun _ _ => rfl]

end Syntax

/-! ## Reports -/

def Declaration.measure (d : Declaration) : DeclarationKind × Option Nat :=
  (d.kind, d.statements)

def Declaration.longMethod (d : Declaration) (file : String) : LongMethod :=
  ⟨d.callableName, file, d.position.line, d.statementCount⟩

theorem Syntax.Place.measure?_eq (v : Place) :
    v.node.measure? = v.callable?.map fun c => (c.declaration {}).measure := by
  unfold Node.measure? callable?
  cases hkind : v.node.callableKind? with
  | none => rfl
  | some kind =>
    cases hsite : v.node.callableSite? with
    | none => rfl
    | some site =>
      have hcallable : v.callable? = some ⟨v.node, site, v.callableName site, kind⟩ := by
        rw [callable?, hkind, Option.bind_some, hsite]
        rfl
      have hstatements : (if kind.isCallable then v.node.statements? else none) =
          v.node.statements? := if_pos (isCallable_of_callable? hcallable)
      exact congrArg (fun count => some (kind, count)) hstatements.symm

theorem callables_measure (path : String) (tree : Tree) :
    (Facts.ofTree path tree).callables.map Declaration.measure = tree.root.measuresFrom [] := by
  have hplaced : Declaration.measure = Declaration.measure ∘ Declaration.unplaced := rfl
  rw [hplaced, ← List.map_map, callables_unplaced, List.map_map, Node.callables, List.map_filterMap,
    Node.measuresFrom]
  exact List.filterMap_congr fun v _ => v.measure?_eq.symm

/-- Lists that are the same under a function, put together. -/
theorem zip_of_map_eq {α β : Type} {g : α → β} {as bs : List α} (h : as.map g = bs.map g) :
    (as.zip bs).map (·.1) = as ∧ (as.zip bs).map (·.2) = bs ∧ ∀ p ∈ as.zip bs, g p.1 = g p.2 := by
  have hlength : as.length = bs.length := by simpa using congrArg List.length h
  have hfst : (as.zip bs).map (·.1) = as := List.map_fst_zip hlength.le
  have hsnd : (as.zip bs).map (·.2) = bs := List.map_snd_zip hlength.ge
  refine ⟨hfst, hsnd, List.map_inj_left.mp ?_⟩
  calc (as.zip bs).map (fun p => g p.1)
      = ((as.zip bs).map (·.1)).map g := List.map_map.symm
    _ = ((as.zip bs).map (·.2)).map g := by rw [hfst, hsnd, h]
    _ = (as.zip bs).map (fun p => g p.2) := List.map_map

/-- **Remarks do not measure.** If remarks are put into the tree of a file, anywhere, the file still
declares the same callables in the same order, as far as their kinds, their bodies and the statements in
them are concerned. At each threshold the long ones are the same, whichever of the two files their
statements are counted in. -/
theorem remarks_keep_long_methods (path path' : String) (tree tree' : Tree)
    (h : Remarked tree.root tree'.root) (hbare : tree.root.SignsBare) :
    (Facts.ofTree path tree).callables.map Declaration.measure =
        (Facts.ofTree path' tree').callables.map Declaration.measure ∧
      tree.isUnrecognizable = tree'.isUnrecognizable ∧
      ∀ threshold, ∃ long : List (Declaration × Declaration),
        long = ((Facts.ofTree path tree).callables.zip (Facts.ofTree path' tree').callables).filter
            (fun d => threshold ≤ d.1.statementCount) ∧
          (∀ d ∈ long, d.1.measure = d.2.measure) ∧
          (Facts.ofTree path tree).longMethods threshold = long.map (·.1.longMethod path) ∧
          (Facts.ofTree path' tree').longMethods threshold = long.map (·.2.longMethod path') := by
  have hmeasure : (Facts.ofTree path tree).callables.map Declaration.measure =
      (Facts.ofTree path' tree').callables.map Declaration.measure := by
    rw [callables_measure, callables_measure]
    exact h.measuresFrom_eq (List.forall_mem_nil _) (List.forall_mem_nil _) hbare
  obtain ⟨hfst, hsnd, hsame⟩ := zip_of_map_eq hmeasure
  refine ⟨hmeasure, by rw [Tree.isUnrecognizable, h.kind_eq]; rfl, fun threshold =>
    ⟨_, rfl, fun d hd => hsame d (List.mem_of_mem_filter hd), ?_, ?_⟩⟩
  · rw [Facts.longMethods, ← hfst, List.filter_map, List.map_map, hfst]
    rfl
  · have hcount : ∀ d ∈ (Facts.ofTree path tree).callables.zip (Facts.ofTree path' tree').callables,
        decide (threshold ≤ d.2.statementCount) = decide (threshold ≤ d.1.statementCount) := by
      intro d hd
      have hstatements : d.1.statements = d.2.statements := congrArg Prod.snd (hsame d hd)
      rw [Declaration.statementCount, Declaration.statementCount, hstatements]
    rw [Facts.longMethods, ← hsnd, List.filter_map, List.map_map, hsnd]
    exact congrArg _ (List.filter_congr hcount)

namespace Syntax.Node

/-- The local `int x = …;` with a sign in front of what stands there. -/
def signedLocal (start : Nat) (operand : List Node) (stop : Nat) : Node :=
  phrase "local_declaration_statement" none
    [phrase "variable_declaration" none
      [predefinedType "type" start "int",
        phrase "variable_declarator" none
          [word (some "name") (start + 4) "x", token (start + 6) "=",
            phrase "prefix_unary_expression" none (token (start + 8) "-" :: operand)]],
      token stop ";"]

def classOfMethod (statements : List Node) (stop : Nat) : Node :=
  phrase "compilation_unit" none
    [phrase "class_declaration" none
      [token 0 "class", word (some "name") 6 "C",
        body 8 [procedure "method_declaration" "returns" 10 "M" statements stop] (stop + 2)]]

/-- The file `class C { void M() { int x = -1; } }`. -/
def signedMethod : Node :=
  classOfMethod [signedLocal 21 [integer 30 "1"] 31] 33

/-- The same file with a comment in front of the statement and one behind the sign. -/
def remarkedMethod : Node :=
  classOfMethod [comment 21, signedLocal 26 [comment 35, integer 39 "1"] 40] 42

end Syntax.Node

theorem remarked_signedMethod : Remarked Node.signedMethod Node.remarkedMethod := by
  refine .intro rfl rfl rfl ?_
  repeat' first
    | exact .nil
    | refine .remark rfl ?_
    | refine .part (.intro rfl rfl rfl ?_) ?_

theorem remarkedMethod_long :
    Remarked Node.signedMethod Node.remarkedMethod ∧ Node.signedMethod.SignsBare ∧
      (Facts.ofTree "C.cs" ⟨Node.remarkedMethod, false⟩).callables.map Declaration.measure =
        [(.method, some 1)] ∧
      (Facts.ofTree "C.cs" ⟨Node.remarkedMethod, false⟩).longMethods 1 = [⟨"M", "C.cs", 1, 1⟩] := by
  have hbare : Node.signedMethod.SignsBare := by decide +kernel
  obtain ⟨hmeasure, -, hlong⟩ := remarks_keep_long_methods "C.cs" "C.cs" ⟨Node.signedMethod, false⟩
    ⟨Node.remarkedMethod, false⟩ remarked_signedMethod hbare
  obtain ⟨long, rfl, -, -, hreport⟩ := hlong 1
  exact ⟨remarked_signedMethod, hbare, hmeasure.symm.trans (by decide), hreport.trans (by decide)⟩

end CodeSmell
