import CodeSmell.Proofs.Facts.Tour

/-!
# The loop of a walk

A walk takes the pending node on top of a stack, visits it and pushes its parts, the last one first,
each with the scope that the visit gives them.

* `Loop`, `Loop.next?` : the state between two visits, and one turn of the loop;
* `Loop.Run` : some turns with the nodes they visit; `Run.run_eq` says that these are the turns that
  `Findings.run` makes, and that it does not matter how many more it might make;
* `run_row`, `run_tour` : from any stack, some turns tour the trees on top and leave what is under
  them;
* `run_stack` : so the loop ends, from any stack;
* `walk_refines_preorder` : a walk ends, it gives the facts of the recursion, and it visits each
  visible place once.
-/

namespace CodeSmell

open Syntax

/-- The state of a walk between two visits: what has been found, and the stack. -/
structure Loop where
  found : Findings
  stack : List Pending

namespace Loop

/-- The stack with some pending nodes on it, pushed from the last to the first. -/
def push (stack parts : List Pending) : List Pending :=
  parts.reverse.foldl (fun stack p => p :: stack) stack

theorem push_eq (stack parts : List Pending) : push stack parts = parts ++ stack := by
  rw [push, List.foldl_reverse]
  induction parts with
  | nil => rfl
  | cons p rest ih => rw [List.foldr_cons, ih, List.cons_append]

/-- One turn: the node that is visited, and the state behind the visit. With an empty stack the
loop ends. -/
def next? (s : Loop) : Option (Pending × Loop) :=
  match s.stack with
  | [] => none
  | p :: rest =>
    match p.node.innerScope? p.scope (s.found.namespaceAt p.scope) with
    | none => some (p, ⟨s.found.visit p, rest⟩)
    | some scope => some (p, ⟨s.found.visit p, push rest (p.parts scope)⟩)

theorem next?_of_none {f : Findings} {p : Pending} (rest : List Pending)
    (h : p.node.innerScope? p.scope (f.namespaceAt p.scope) = none) :
    next? ⟨f, p :: rest⟩ = some (p, ⟨f.visit p, rest⟩) := by
  rw [next?]
  dsimp only
  rw [h]

theorem next?_of_some {f : Findings} {p : Pending} (rest : List Pending) {scope : Scope}
    (h : p.node.innerScope? p.scope (f.namespaceAt p.scope) = some scope) :
    next? ⟨f, p :: rest⟩ = some (p, ⟨f.visit p, p.parts scope ++ rest⟩) := by
  rw [next?]
  dsimp only
  rw [h, ← push_eq]

def start (root : Node) : Loop :=
  ⟨{}, [⟨root, [], {}⟩]⟩

/-- Some turns of the loop, with the nodes that they visit. -/
inductive Run : Loop → List Pending → Loop → Prop
  | nil (s : Loop) : Run s [] s
  | cons {s t u : Loop} {p : Pending} {ps : List Pending} (turn : s.next? = some (p, t))
      (rest : Run t ps u) : Run s (p :: ps) u

namespace Run

theorem append {s t u : Loop} {ps qs : List Pending} (h : Run s ps t) (h' : Run t qs u) :
    Run s (ps ++ qs) u := by
  induction h with
  | nil => exact h'
  | cons turn _ ih => exact .cons turn (ih h')

/-- Visits counted by fuel are turns of the loop. -/
theorem run_eq {s t : Loop} {ps : List Pending} (h : Run s ps t) (fuel : Nat) :
    s.found.run (ps.length + fuel) s.stack = t.found.run fuel t.stack := by
  induction h with
  | nil => rw [List.length_nil, Nat.zero_add]
  | @cons s t u p ps turn _ ih =>
    obtain ⟨found, stack⟩ := s
    cases stack with
    | nil => cases turn
    | cons q rest =>
      rw [List.length_cons, Nat.add_right_comm, ← ih, Findings.run]
      cases hscope : q.node.innerScope? q.scope (found.namespaceAt q.scope) with
      | none =>
        rw [next?_of_none rest hscope] at turn
        cases turn
        rfl
      | some scope =>
        rw [next?_of_some rest hscope] at turn
        cases turn
        rfl

end Run

/-! ## The loop tours the tree on top -/

/-- Some turns of the loop tour a row of trees on top of the stack, if they do so with each of the
trees, whatever has been found before it and lies under it. -/
theorem run_row {around ns : List Node} {scope : Scope}
    (h : ∀ n ∈ ns, ∀ (f : Findings) (rest : List Pending),
      ∃ ps, Run ⟨f, ⟨n, around, scope⟩ :: rest⟩ ps ⟨f.tour around scope n, rest⟩ ∧
        ps.map Pending.place = n.visibleFrom around)
    (f : Findings) (rest : List Pending) :
    ∃ ps, Run ⟨f, ns.map (fun c => ⟨c, around, scope⟩) ++ rest⟩ ps
        ⟨f.tourAll around scope ns, rest⟩ ∧
      ps.map Pending.place = ns.flatMap (Node.visibleFrom around) := by
  induction ns generalizing f with
  | nil => exact ⟨[], .nil _, rfl⟩
  | cons n ns ih =>
    obtain ⟨hn, hns⟩ := List.forall_mem_cons.mp h
    obtain ⟨ps, hps, hplaces⟩ := hn f (ns.map (fun c => ⟨c, around, scope⟩) ++ rest)
    obtain ⟨qs, hqs, hplaces'⟩ := ih hns (f.tour around scope n)
    refine ⟨ps ++ qs, hps.append hqs, ?_⟩
    rw [List.map_append, hplaces, hplaces', List.flatMap_cons]

/-- Some turns of the loop tour the tree on top of the stack, and no more is visited than what is
visible of it. What lies under it on the stack stays as it is. -/
theorem run_tour (f : Findings) (around : List Node) (scope : Scope) (n : Node)
    (rest : List Pending) (h : ∀ a ∈ around, a.isClosed = false) :
    ∃ ps, Run ⟨f, ⟨n, around, scope⟩ :: rest⟩ ps ⟨f.tour around scope n, rest⟩ ∧
      ps.map Pending.place = n.visibleFrom around := by
  induction n using Node.parts_induction generalizing f around scope rest with
  | step n ih =>
    rw [Findings.tour_eq, Node.visibleFrom_eq h]
    cases hscope : n.innerScope? scope (f.namespaceAt scope) with
    | none =>
      rw [if_pos ((n.innerScope?_eq_none_iff _ _).mp hscope)]
      exact ⟨[⟨n, around, scope⟩], .cons (next?_of_none rest hscope) (.nil _), rfl⟩
    | some inner =>
      have hopen : n.isClosed = false := by
        rw [← Bool.not_eq_true]
        intro hclosed
        rw [(n.innerScope?_eq_none_iff scope _).mpr hclosed] at hscope
        cases hscope
      have haround : ∀ a ∈ n :: around, a.isClosed = false :=
        List.forall_mem_cons.mpr ⟨hopen, h⟩
      obtain ⟨ps, hps, hplaces⟩ := run_row
        (fun c hc f rest => ih c hc f (n :: around) inner rest haround)
        (f.visit ⟨n, around, scope⟩) rest
      rw [if_neg (by rw [hopen]; decide)]
      refine ⟨⟨n, around, scope⟩ :: ps, .cons (next?_of_some rest hscope) hps, ?_⟩
      rw [List.map_cons, hplaces]
      rfl

/-- From any stack the loop ends, with each of the trees toured in turn. -/
theorem run_stack (f : Findings) (stack : List Pending)
    (h : ∀ p ∈ stack, ∀ a ∈ p.ancestors, a.isClosed = false) :
    ∃ ps, Run ⟨f, stack⟩ ps
        ⟨stack.foldl (fun f p => f.tour p.ancestors p.scope p.node) f, []⟩ ∧
      ps.map Pending.place = stack.flatMap fun p => p.node.visibleFrom p.ancestors := by
  induction stack generalizing f with
  | nil => exact ⟨[], .nil _, rfl⟩
  | cons p rest ih =>
    obtain ⟨hp, hrest⟩ := List.forall_mem_cons.mp h
    obtain ⟨ps, hps, hplaces⟩ := run_tour f p.ancestors p.scope p.node rest hp
    obtain ⟨qs, hqs, hplaces'⟩ := ih (f.tour p.ancestors p.scope p.node) hrest
    refine ⟨ps ++ qs, hps.append hqs, ?_⟩
    rw [List.map_append, hplaces, hplaces', List.flatMap_cons]

end Loop

/-! ## Every node of a tree has one place -/

namespace Syntax.Node

theorem length_placesFrom (n : Node) (around : List Node) :
    (n.placesFrom around).length = n.size := by
  induction n using parts_induction generalizing around with
  | step n ih =>
    have hrow : ∀ cs : List Node,
        (∀ c ∈ cs, (c.placesFrom (n :: around)).length = c.size) →
          (cs.flatMap (placesFrom (n :: around))).length = sizes cs := by
      intro cs
      induction cs with
      | nil => exact fun _ => rfl
      | cons c rest ihrest =>
        intro hsize
        obtain ⟨hc, hrest⟩ := List.forall_mem_cons.mp hsize
        rw [List.flatMap_cons, List.length_append, hc, ihrest hrest, sizes]
    rw [placesFrom_eq, List.length_cons, hrow n.children fun c hc => ih c hc _, size_eq]

end Syntax.Node

/-- The facts of a file whose walk has found this. -/
def Facts.ofFindings (path : String) (hasError : Bool) (found : Findings) : Facts where
  path := path
  declarations := found.declarations.toList
  literals := found.literals.toList
  usings := found.usings.toList
  references := found.references.toList
  usesQuery := found.usesQuery
  hasError := hasError

theorem Facts.ofTree_eq (path : String) (tree : Tree) :
    Facts.ofTree path tree = .ofFindings path tree.hasError (Findings.walk tree.root) :=
  rfl

/-- **The walk refines the recursion.** The loop ends, and no turns that are left over change what
it has found. That is what the recursion finds which visits a node, goes on with each of its parts,
from left to right and in the scope that the visit gives, and leaves them out if it gives none. The
visits are those to the visible places in their order: the nodes of the tree, one place each, but
for those below a node whose parts get no scope. -/
theorem walk_refines_preorder (path : String) (tree : Tree) :
    (∃ ps, Loop.Run (.start tree.root) ps ⟨Findings.walk tree.root, []⟩ ∧
        ps.map Pending.place = tree.root.visible ∧
        ∀ more, ({} : Findings).run (ps.length + more) [⟨tree.root, [], {}⟩] =
          Findings.walk tree.root) ∧
      Facts.ofTree path tree =
        .ofFindings path tree.hasError (({} : Findings).tour [] {} tree.root) ∧
      tree.root.places.length = tree.root.size ∧
      ∀ v, v ∈ tree.root.visible ↔ v ∈ tree.root.places ∧
        ∀ a ∈ v.ancestors, ∀ scope outer, a.innerScope? scope outer ≠ none := by
  refine ⟨?_, ?_, tree.root.length_placesFrom [], fun v => ?_⟩
  · obtain ⟨ps, hps, hplaces⟩ := Loop.run_stack {} [⟨tree.root, [], {}⟩] (by simp)
    rw [List.foldl_cons, List.foldl_nil, ← Findings.walk_eq_tour] at hps
    refine ⟨ps, hps, ?_, fun more => ?_⟩
    · rw [hplaces, List.flatMap_cons, List.flatMap_nil, List.append_nil]
      rfl
    · refine (hps.run_eq more).trans ?_
      cases more <;> rfl
  · rw [Facts.ofTree_eq, Findings.walk_eq_tour]
  · rw [Node.mem_visible]
    simp only [ne_eq, Node.innerScope?_eq_none_iff, Bool.not_eq_true, forall_const]

end CodeSmell
