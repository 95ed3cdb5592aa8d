import CodeSmell.Proofs.Facts.Loop
import CodeSmell.Proofs.Facts.PatternVariables

/-!
# What a designation binds

* `Place.isBound` : an identifier at a place of a designation that has only groups around it;
* `designated_eq_filter` : these are the identifiers that the recursion over groups finds, in their
  order;
* `Node.Deconstructs` : a pattern or a loop that takes a designation apart, and what a visit to it
  does (`visit_of_deconstructs`);
* `designated_identifiers_declared` : from any designation the loop over its nodes ends, and what it
  declares are these identifiers, each once.
-/

namespace CodeSmell

open Syntax

theorem flatMap_filter {α β : Type} (p : α → Bool) (f : α → List β) (xs : List α) :
    (xs.filter p).flatMap f = xs.flatMap fun x => if p x then f x else [] := by
  induction xs with
  | nil => rfl
  | cons x rest ih =>
    rw [List.filter_cons, List.flatMap_cons, ← ih]
    split <;> rfl

namespace Syntax

/-- Whether a designation binds what stands at a place of it: an identifier with nothing but groups
around it, in which each holds the next as a named part. -/
def Place.isBound (v : Place) : Bool :=
  v.node.isIdentifier && v.ancestors.all (·.isGroup) && v.path.dropLast.all (·.named)

namespace Place

/-- A place of a part, seen from the whole. -/
theorem isBound_below {n c : Node} {v : Place} (hv : v ∈ c.places) :
    isBound ⟨v.node, v.ancestors ++ [n]⟩ = (n.isGroup && c.named && v.isBound) := by
  -- the way from a place of the part leads to the part
  obtain ⟨way, hway⟩ : [c] <:+ v.path := path_suffix_of_mem_within (v := ⟨c, []⟩) hv
  have hdrop : v.path.dropLast = way := by
    rw [← hway, List.dropLast_concat]
  have hpath : (Place.mk v.node (v.ancestors ++ [n])).path.dropLast = way ++ [c] := by
    show ((v.node :: v.ancestors) ++ [n]).dropLast = _
    rw [List.dropLast_concat, hway]
    rfl
  unfold isBound
  rw [hpath, hdrop, List.all_append, List.all_append]
  simp only [List.all_cons, List.all_nil, Bool.and_true]
  ac_rfl

end Place

namespace Node

theorem isGroup_of_isIdentifier {n : Node} (h : n.isIdentifier = true) : n.isGroup = false := by
  rw [isGroup, eq_of_beq h]
  decide

/-- What is bound in a part is bound in the whole if this is a group and the part is named. -/
theorem bound_part (n c : Node) :
    ((c.placesFrom [n]).filter (·.isBound)).map (·.node) =
      if n.isGroup && c.named then (c.places.filter (·.isBound)).map (·.node) else [] := by
  have hbelow : c.places.filter (fun v => Place.isBound ⟨v.node, v.ancestors ++ [n]⟩) =
      c.places.filter fun v => n.isGroup && c.named && v.isBound :=
    List.filter_congr fun v hv => Place.isBound_below hv
  rw [placesFrom_eq_map, List.filter_map, List.map_map]
  show (c.places.filter fun v => Place.isBound ⟨v.node, v.ancestors ++ [n]⟩).map (·.node) = _
  rw [hbelow]
  cases n.isGroup && c.named with
  | true => rfl
  | false => simp only [Bool.false_and, List.filter_false, List.map_nil, Bool.false_eq_true, if_false]

/-- The recursion over groups finds the bound identifiers, each at its place. -/
theorem designated_eq_filter (n : Node) :
    n.designated = (n.places.filter (·.isBound)).map (·.node) := by
  induction n using parts_induction with
  | step n ih =>
    have hpart : ∀ c ∈ n.children,
        ((c.placesFrom [n]).filter (·.isBound)).map (·.node) =
          if n.isGroup && c.named then c.designated else [] := by
      intro c hc
      rw [bound_part, ih c hc]
    have hroot : Place.isBound ⟨n, []⟩ = n.isIdentifier := by
      simp [Place.isBound, Place.path]
    rw [designated_eq, places, placesFrom_eq, List.filter_cons, hroot, List.filter_flatMap,
      apply_ite (List.map _), List.map_cons, List.map_flatMap, List.flatMap_congr hpart]
    -- an identifier is no group, so that nothing is bound below it
    cases hid : n.isIdentifier with
    | true => simp [isGroup_of_isIdentifier hid]
    | false =>
      cases hgroup : n.isGroup with
      | true => simp [namedChildren, flatMap_filter]
      | false => simp

/-- In a well-formed designation nothing but groups and identifiers can be on the way: tokens
without a name have no parts. -/
theorem WellFormed.isBound_eq {target : Node} (h : target.WellFormed) {v : Place}
    (hv : v ∈ target.places) :
    v.isBound = (v.node.isIdentifier && v.ancestors.all (·.isGroup)) := by
  unfold Place.isBound
  cases hid : v.node.isIdentifier with
  | false => rfl
  | true =>
    have hnamed : v.path.dropLast.all (·.named) = true := by
      apply List.all_eq_true.mpr
      intro a ha
      rcases List.mem_cons.mp (List.dropLast_subset _ ha) with rfl | ha
      · exact (h v hv).named_of_identifier hid
      · obtain ⟨u, hu, rfl, hinside⟩ := exists_place_of_mem_ancestors hv ha
        rw [← Bool.not_eq_false]
        intro hunnamed
        rw [Place.inside, (h u hu).no_parts_of_unnamed hunnamed] at hinside
        exact List.not_mem_nil hinside
    rw [hnamed, Bool.and_true]

/-! ## What is declared -/

/-- A pattern or a loop that declares what a designation binds. -/
inductive Deconstructs (n : Node) : Node → Prop
  | pattern {d : Node} (kind : n.construct = .pattern) (given : n.designation? = some d) :
      Deconstructs n d
  | loop {d : Node} (kind : n.construct = .loop)
      (typed : (n.childByField? "type").isSome = true) (given : n.childByField? "left" = some d) :
      Deconstructs n d

namespace Deconstructs

variable {n d : Node}

theorem construct_eq (h : n.Deconstructs d) : n.construct = .pattern ∨ n.construct = .loop := by
  cases h with
  | pattern kind given => exact .inl kind
  | loop kind typed given => exact .inr kind

theorem introduced_eq (h : n.Deconstructs d) (ancestors : List Node) :
    n.introduced ancestors = d.bindings.map (.named n .localVariable) := by
  unfold introduced
  cases h with
  | pattern kind given =>
    rw [kind]
    show n.patternVariables = _
    rw [patternVariables, given, Option.toList_some, List.flatMap_singleton]
  | loop kind typed given =>
    rw [kind]
    show n.loopVariables = _
    rw [loopVariables, if_pos typed, given, Option.toList_some, List.flatMap_singleton]

end Deconstructs

end Node

end Syntax

/-- A visit to a pattern or a loop declares the identifiers that its designation binds as locals,
makes their offsets sites, and changes nothing else. -/
theorem Findings.visit_of_deconstructs (f : Findings) {p : Pending} {target : Node}
    (h : p.node.Deconstructs target) :
    f.visit p =
      { f with
        declarations := f.declarations ++ target.bindings.map fun m =>
          (Introduction.named p.node .localVariable m).declaration (f.here p)
        sites := target.bindings.map (·.start) ++ f.sites } := by
  have hsites : (target.bindings.map (Introduction.named p.node .localVariable)).map (·.site.start) =
      target.bindings.map (·.start) := List.map_map
  unfold visit Node.sites
  dsimp only
  rw [h.introduced_eq, hsites]
  -- neither construct states anything but what it introduces
  rcases h.construct_eq with hc | hc
  all_goals
    simp [hc, Node.namespaceDeclaration?, Node.namespaceName?, Node.literal?, Node.using?,
      referencesOf, Node.attributeReference?, here, Function.comp_def]

/-- **What a designation binds.** From any target the loop ends with an empty stack, however many turns
it might still make. It finds the identifiers among the places of the target that have only groups
around them, named part in named part, from left to right and each once: every node of the target has
one place. In a well-formed target the identifiers with only groups around them are all of these, and
they begin one behind the other. A pattern or a loop that takes the target apart declares each of them
as a local, in this order, makes just their offsets sites, and changes nothing else. -/
theorem designated_identifiers_declared (target : Node) :
    (∀ more, Deconstruction.run { stack := [target] } (target.size + more) =
        ⟨target.bindings.toArray, []⟩) ∧
      target.places.length = target.size ∧
      target.bindings = (target.places.filter (·.isBound)).map (·.node) ∧
      (target.WellFormed →
        (∀ v ∈ target.places,
          v.isBound = (v.node.isIdentifier && v.ancestors.all (·.isGroup))) ∧
        target.bindings.Pairwise fun m n => m.start < n.start) ∧
      ∀ (f : Findings) (p : Pending), p.node.Deconstructs target →
        f.visit p =
          { f with
            declarations := f.declarations ++ target.bindings.map fun m =>
              (Introduction.named p.node .localVariable m).declaration (f.here p)
            sites := target.bindings.map (·.start) ++ f.sites } := by
  refine ⟨fun more => ?_, target.length_placesFrom [], ?_, fun h => ⟨fun v => h.isBound_eq, ?_⟩,
    fun f p => f.visit_of_deconstructs⟩
  · rw [Deconstruction.run_start target _ (Nat.le_add_right _ _), target.bindings_eq_designated]
  · rw [target.bindings_eq_designated, target.designated_eq_filter]
  · rw [target.bindings_eq_designated]
    refine h.designated_increasing (v := ⟨target, []⟩) (Node.mem_visible.mpr ⟨?_, ?_⟩)
    · exact target.self_mem_placesFrom []
    · exact List.forall_mem_nil _

namespace Syntax.Node

/-- The tuple `(a, (_, b), c)`. -/
def nestedTuple : Node :=
  phrase "tuple_pattern" (some "left")
    [token 13 "(", word (some "name") 14 "a", token 15 ",",
      phrase "tuple_pattern" none
        [token 17 "(", phrase "discard" none [token 18 "_"], token 19 ",",
          word (some "name") 21 "b", token 22 ")"],
      token 23 ",", word (some "name") 25 "c", token 26 ")"]

/-- The loop `foreach (var (a, (_, b), c) in d) { }`. -/
def nestedLoop : Node :=
  phrase "foreach_statement" none
    [token 0 "foreach", token 8 "(", phrase "implicit_type" (some "type") [token 9 "var"],
      nestedTuple, token 28 "in", word (some "right") 31 "d", token 32 ")",
      phrase "block" (some "body") [token 34 "\x7b", token 36 "\x7d"]]

theorem nestedTuple_wellFormed : nestedTuple.WellFormed := by decide +kernel

theorem nestedLoop_deconstructs : nestedLoop.Deconstructs nestedTuple :=
  .loop rfl rfl rfl

end Syntax.Node

/-- The loop declares `a`, `b` and `c`, neither the `_` nor the `d`. -/
theorem nestedLoop_declares :
    Node.nestedTuple.WellFormed ∧ Node.nestedLoop.Deconstructs Node.nestedTuple ∧
      Node.nestedTuple.bindings =
        [.word (some "name") 14 "a", .word (some "name") 21 "b", .word (some "name") 25 "c"] ∧
      (Node.nestedTuple.bindings.Pairwise fun m n => m.start < n.start) ∧
      (({} : Findings).visit ⟨Node.nestedLoop, [], {}⟩).declarations =
        #[⟨"a", .localVariable, ⟨14, 1⟩, none, none, false, false, none⟩,
          ⟨"b", .localVariable, ⟨21, 1⟩, none, none, false, false, none⟩,
          ⟨"c", .localVariable, ⟨25, 1⟩, none, none, false, false, none⟩] ∧
      (({} : Findings).visit ⟨Node.nestedLoop, [], {}⟩).sites = [14, 21, 25] := by
  obtain ⟨-, -, hbound, hordered, hvisit⟩ := designated_identifiers_declared Node.nestedTuple
  have hbindings : Node.nestedTuple.bindings =
      [.word (some "name") 14 "a", .word (some "name") 21 "b", .word (some "name") 25 "c"] := by
    rw [hbound]
    rfl
  have hdeconstructs : (Pending.mk Node.nestedLoop [] {}).node.Deconstructs Node.nestedTuple :=
    Node.nestedLoop_deconstructs
  refine ⟨Node.nestedTuple_wellFormed, hdeconstructs, hbindings,
    (hordered Node.nestedTuple_wellFormed).2, ?_, ?_⟩
  · rw [hvisit {} _ hdeconstructs, hbindings]
    rfl
  · rw [hvisit {} _ hdeconstructs, hbindings]
    rfl

end CodeSmell
