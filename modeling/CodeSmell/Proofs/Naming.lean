import CodeSmell.Proofs.Project.Aliases
import Mathlib.Data.List.Forall2

/-!
# Names and their conventions

* `Convention.Fits` : a name is written as a convention says, character by character; `admits_iff_fits`
  says that these are the names that the check admits, and `not_fits_both` that no name is written by both;
* `Declaration.Misnamed` : a declaration has a name of a kind that is checked, and it does not fit;
* `Facts.forall₂_namingViolations` : the check has one violation for each misnamed declaration;
* `Declaration.namingViolation?_verbatim` : a verbatim `@` has no say in the verdict;
* `naming_verdicts` : the violations of a source, with what follows for single names.
-/

namespace CodeSmell

open Syntax

namespace Text

def nameClasses : List Category :=
  [.upper, .lower, .letter, .digit]

/-- The characters that end a line. -/
def lineBreaks : List Char :=
  ['\n', '\x0b', '\x0c', '\r', '\x85', '\u2028', '\u2029']

theorem isLetter_or_isDigit_iff {x : Char} :
    (isLetter x || isDigit x) = true ↔ category x ∈ nameClasses := by
  unfold isLetter isDigit nameClasses
  cases category x <;> decide

theorem category_not_mem_of_lineBreak {x : Char} (h : x ∈ lineBreaks) :
    category x ∉ nameClasses := by
  have hall : lineBreaks.all (category · ∉ nameClasses) = true := by decide +kernel
  exact of_decide_eq_true (List.all_eq_true.mp hall x h)

/-- A mark or a connector is no letter and no digit. -/
theorem category_not_mem_of_joining {x : Char}
    (h : category x ∈ [Category.extending, .mark, .connector]) : category x ∉ nameClasses := by
  revert h
  cases category x <;> decide

end Text

/-! ## How names are written -/

namespace Convention

/-- A name is written as a convention says: it begins with a letter of the right case, and goes on with
letters of any case and decimal digits. -/
def Fits (c : Convention) (name : String) : Prop :=
  ∃ first rest, name.toList = first :: rest ∧
    (c = .upperCamel → Text.category first = .upper) ∧
    (c = .lowerCamel → Text.category first = .lower) ∧
    ∀ x ∈ rest, Text.category x ∈ Text.nameClasses

variable {c : Convention} {name : String}

theorem admits_iff_fits : c.admits name = true ↔ c.Fits name := by
  have hinitial (first : Char) : Text.category first = c.initial ↔
      (c = .upperCamel → Text.category first = .upper) ∧
        (c = .lowerCamel → Text.category first = .lower) := by
    cases c with
    | upperCamel => simp [initial]
    | lowerCamel => simp [initial]
  unfold admits Fits
  split
  · next hnil => simp [hnil]
  · next first rest hcons =>
    rw [hcons, Bool.and_eq_true, beq_iff_eq, hinitial, List.all_eq_true]
    simp only [Text.isLetter_or_isDigit_iff]
    constructor
    · rintro ⟨⟨hupper, hlower⟩, hrest⟩
      exact ⟨first, rest, rfl, hupper, hlower, hrest⟩
    · rintro ⟨_, _, heq, hupper, hlower, hrest⟩
      cases heq
      exact ⟨⟨hupper, hlower⟩, hrest⟩

theorem not_fits_both : ¬ (Fits .upperCamel name ∧ Fits .lowerCamel name) := by
  rintro ⟨⟨first, _, heq, hupper, -⟩, ⟨_, _, heq', -, hlower, -⟩⟩
  rw [heq] at heq'
  cases heq'
  have hboth := (hupper rfl).symm.trans (hlower rfl)
  cases hboth

/-- All characters of a name that fits are letters and digits. -/
theorem Fits.mem_nameClasses (h : c.Fits name) {x : Char} (hx : x ∈ name.toList) :
    Text.category x ∈ Text.nameClasses := by
  obtain ⟨first, rest, heq, hupper, hlower, hrest⟩ := h
  rw [heq] at hx
  rcases List.mem_cons.mp hx with rfl | hx
  · cases c with
    | upperCamel => rw [hupper rfl]; decide
    | lowerCamel => rw [hlower rfl]; decide
  · exact hrest x hx

end Convention

/-! ## Verdicts on declarations -/

namespace Declaration

/-- A declaration has a name of a kind that is checked, it is no discard, and it is not written as
names of the kind are. -/
structure Misnamed (d : Declaration) (type : IdentifierType) : Prop where
  checked : d.kind.identifierType? = some type
  nonempty : d.symbol ≠ ""
  not_discard : ∃ x ∈ d.symbol.toList, x ≠ '_'
  unfit : ¬ type.convention.Fits d.symbol

/-- A declaration is misnamed as one of the kinds. -/
def IsMisnamed (d : Declaration) : Prop :=
  ∃ type, d.Misnamed type

def misnaming (d : Declaration) (type : IdentifierType) (file : String) : NamingViolation where
  identifierName := d.name
  identifierType := type
  file := file
  line := d.position.line
  expected := type.convention

variable {d : Declaration} {file : String}

theorem namingViolation?_eq_some_iff {v : NamingViolation} :
    d.namingViolation? file = some v ↔ ∃ type, d.Misnamed type ∧ d.misnaming type file = v := by
  unfold namingViolation?
  rw [Option.bind_eq_some_iff]
  refine exists_congr fun type => ?_
  have hverdict : d.Misnamed type ↔ d.kind.identifierType? = some type ∧
      ¬ (isDiscard d.symbol || type.convention.admits d.symbol) = true := by
    rw [Bool.or_eq_true, not_or, Bool.not_eq_true, isDiscard_eq_false_iff,
      Convention.admits_iff_fits]
    constructor
    · intro h
      exact ⟨h.checked, h.not_discard, h.unfit⟩
    · rintro ⟨hchecked, ⟨x, hx, hne⟩, hunfit⟩
      refine ⟨hchecked, fun hempty => ?_, ⟨x, hx, hne⟩, hunfit⟩
      rw [hempty] at hx
      cases hx
  rw [hverdict, and_assoc]
  refine and_congr_right fun _ => ?_
  split
  · next hspared => simp [hspared]
  · next hbroken =>
    rw [Option.some_inj]
    exact (and_iff_right hbroken).symm

instance (d : Declaration) : Decidable d.IsMisnamed :=
  decidable_of_iff ((d.namingViolation? "").isSome = true) (by
    simp only [Option.isSome_iff_exists, namingViolation?_eq_some_iff, IsMisnamed]
    constructor
    · rintro ⟨_, type, h, -⟩
      exact ⟨type, h⟩
    · rintro ⟨type, h⟩
      exact ⟨_, type, h, rfl⟩)

theorem namingViolation?_eq_none_iff : d.namingViolation? file = none ↔ ¬ d.IsMisnamed := by
  rw [← Option.not_isSome_iff_eq_none, Option.isSome_iff_exists, IsMisnamed]
  simp only [namingViolation?_eq_some_iff]
  constructor
  · rintro h ⟨type, hmisnamed⟩
    exact h ⟨_, type, hmisnamed, rfl⟩
  · rintro h ⟨_, type, hmisnamed, -⟩
    exact h ⟨type, hmisnamed⟩

/-- A declaration with a verbatim `@` in front of its name. -/
def verbatim (d : Declaration) : Declaration :=
  { d with name := "@" ++ d.name }

theorem symbol_verbatim (h : d.name.toList.head? ≠ some '@') : d.verbatim.symbol = d.symbol := by
  rw [symbol, symbol, verbatim, symbolName_verbatim, symbolName_of_head?_ne h]

/-- A verbatim `@` changes how a name is reported and nothing else. -/
theorem namingViolation?_verbatim (h : d.name.toList.head? ≠ some '@') :
    d.verbatim.namingViolation? file =
      (d.namingViolation? file).map fun v => { v with identifierName := "@" ++ d.name } := by
  unfold namingViolation?
  rw [symbol_verbatim h, Option.map_bind]
  refine Option.bind_congr fun type _ => ?_
  show (if isDiscard d.symbol || type.convention.admits d.symbol then none else _) = _
  rw [Function.comp_apply]
  split
  · rfl
  · rfl

end Declaration

/-! ## Verdicts on files -/

namespace Facts

variable (f : Facts)

/-- There is one violation for each misnamed declaration, in the order of the declarations. -/
theorem forall₂_namingViolations :
    List.Forall₂ (fun d v => ∃ type, d.Misnamed type ∧ d.misnaming type f.path = v)
      (f.declarations.filter fun d => d.IsMisnamed) f.namingViolations := by
  unfold namingViolations
  induction f.declarations with
  | nil => exact .nil
  | cons d rest ih =>
    rw [List.filterMap_cons]
    cases hverdict : d.namingViolation? f.path with
    | none =>
      have hfits := Declaration.namingViolation?_eq_none_iff.mp hverdict
      rw [List.filter_cons_of_neg (by simpa using hfits)]
      exact ih
    | some v =>
      have hmisnamed := Declaration.namingViolation?_eq_some_iff.mp hverdict
      have hcounts : d.IsMisnamed := hmisnamed.imp fun _ => And.left
      rw [List.filter_cons_of_pos (by simpa using hcounts)]
      exact .cons hmisnamed ih

/-- The violations before a declaration, its own if there is one, and those behind. -/
theorem namingViolations_around {before after : List Declaration} {d : Declaration}
    (h : f.declarations = before ++ d :: after) :
    f.namingViolations = before.filterMap (·.namingViolation? f.path) ++
      (d.namingViolation? f.path).toList ++ after.filterMap (·.namingViolation? f.path) := by
  rw [namingViolations, h, List.filterMap_append, List.append_assoc]
  rw [List.filterMap_eq_flatMap_toList _ (d :: after), List.flatMap_cons,
    ← List.filterMap_eq_flatMap_toList]

end Facts

theorem Source.path_of_read {grammar : Grammar} {path text : String} {f : Facts}
    (h : f ∈ (Source.read grammar path text).facts.toList) : f.path = path := by
  rw [read_facts grammar (path, text)] at h
  split at h
  · rw [List.mem_singleton.mp h]
    rfl
  · cases h

theorem Source.forall₂_namingViolations (grammar : Grammar) (path text : String) :
    List.Forall₂ (fun d v => ∃ type, d.Misnamed type ∧ d.misnaming type path = v)
      (((Source.read grammar path text).facts.toList.flatMap (·.declarations)).filter
        fun d => d.IsMisnamed)
      (Source.read grammar path text).namingViolations := by
  unfold Source.namingViolations
  rw [read_facts grammar (path, text)]
  split
  · rw [Option.toList_some, List.flatMap_singleton, List.flatMap_singleton]
    exact (factsIn grammar (path, text)).forall₂_namingViolations
  · exact .nil

/-- **Which names are violations.** A source has one violation for each recorded declaration that is
misnamed, in the order of the declarations. No name is written by both conventions; a name that is
checked is a violation if it has a line break, a mark or a connector in it; and a verbatim `@` in front
of a name changes the name in the violation of the declaration and nothing else. -/
theorem naming_verdicts (grammar : Grammar) (path text : String) :
    let source := Source.read grammar path text
    let recorded := source.facts.toList.flatMap (·.declarations)
    List.Forall₂ (fun d v => ∃ type, d.Misnamed type ∧ d.misnaming type path = v)
        (recorded.filter fun d => d.IsMisnamed) source.namingViolations ∧
      (∀ name, ¬ (Convention.upperCamel.admits name = true ∧
        Convention.lowerCamel.admits name = true)) ∧
      (∀ d ∈ recorded, ∀ type, d.kind.identifierType? = some type → d.symbol ≠ "" →
        (∃ x ∈ d.symbol.toList, x ≠ '_') →
        (∃ x ∈ d.symbol.toList, x ∈ Text.lineBreaks ∨
          Text.category x ∈ [Text.Category.extending, .mark, .connector]) →
        d.misnaming type path ∈ source.namingViolations) ∧
      ∀ (f : Facts) (before after : List Declaration) (d : Declaration),
        f.declarations = before ++ d :: after → d.name.toList.head? ≠ some '@' →
        ∃ front behind,
          f.namingViolations = front ++ (d.namingViolation? f.path).toList ++ behind ∧
          ({ f with declarations := before ++ d.verbatim :: after } : Facts).namingViolations =
            front ++ ((d.namingViolation? f.path).map fun v =>
              { v with identifierName := "@" ++ d.name }).toList ++ behind := by
  intro source recorded
  refine ⟨Source.forall₂_namingViolations grammar path text, fun name hboth => ?_, ?_, ?_⟩
  · rw [Convention.admits_iff_fits, Convention.admits_iff_fits] at hboth
    exact Convention.not_fits_both hboth
  · intro d hd type hchecked hnonempty hdiscard ⟨x, hx, hclass⟩
    have hunfit : ¬ type.convention.Fits d.symbol := fun hfits => by
      have hmem := hfits.mem_nameClasses hx
      rcases hclass with hbreak | hjoining
      · exact Text.category_not_mem_of_lineBreak hbreak hmem
      · exact Text.category_not_mem_of_joining hjoining hmem
    obtain ⟨f, hf, hdeclared⟩ := List.mem_flatMap.mp hd
    refine List.mem_flatMap.mpr ⟨f, hf, List.mem_filterMap.mpr ⟨d, hdeclared, ?_⟩⟩
    rw [Source.path_of_read hf]
    exact Declaration.namingViolation?_eq_some_iff.mpr
      ⟨type, ⟨hchecked, hnonempty, hdiscard, hunfit⟩, rfl⟩
  · intro f before after d hdeclarations hname
    refine ⟨_, _, f.namingViolations_around hdeclarations, ?_⟩
    rw [← Declaration.namingViolation?_verbatim hname]
    exact Facts.namingViolations_around { f with declarations := before ++ d.verbatim :: after } rfl

/-- The file `class Stroke_Buffer { }`. -/
def Syntax.Node.joinedName : Node :=
  phrase "compilation_unit" none
    [phrase "class_declaration" none
      [token 0 "class", word (some "name") 6 "Stroke_Buffer", body 20 [] 22]]

/-- The class is a violation, and so it is as `@Stroke_Buffer`. -/
theorem joinedName_violates :
    let source := Source.read (fun _ => ⟨Node.joinedName, false⟩) "A.cs" Node.joinedName.text
    let d : Declaration := ⟨"Stroke_Buffer", .classType, ⟨6, 1⟩, none, none, false, false, none⟩
    (d ∈ source.facts.toList.flatMap (·.declarations) ∧
      d.kind.identifierType? = some .classType ∧ d.symbol ≠ "" ∧
      (∃ x ∈ d.symbol.toList, x ≠ '_') ∧
      ∃ x ∈ d.symbol.toList, x ∈ Text.lineBreaks ∨
        Text.category x ∈ [Text.Category.extending, .mark, .connector]) ∧
    ⟨"Stroke_Buffer", .classType, "A.cs", 1, .upperCamel⟩ ∈ source.namingViolations ∧
    d.name.toList.head? ≠ some '@' ∧
    ⟨"@Stroke_Buffer", .classType, "A.cs", 1, .upperCamel⟩ ∈
      ({ Facts.ofTree "A.cs" ⟨Node.joinedName, false⟩ with declarations := [d.verbatim] } :
        Facts).namingViolations := by
  intro source d
  obtain ⟨-, -, hviolates, hverbatim⟩ :=
    naming_verdicts (fun _ => ⟨Node.joinedName, false⟩) "A.cs" Node.joinedName.text
  have hrecorded : d ∈ source.facts.toList.flatMap (·.declarations) := by decide
  have hdiscard : ∃ x ∈ d.symbol.toList, x ≠ '_' := ⟨'S', by decide, by decide⟩
  have hconnector : ∃ x ∈ d.symbol.toList, x ∈ Text.lineBreaks ∨
      Text.category x ∈ [Text.Category.extending, .mark, .connector] :=
    ⟨'_', by decide, .inr (by decide)⟩
  have hname : d.name.toList.head? ≠ some '@' := by decide
  refine ⟨⟨hrecorded, rfl, by decide, hdiscard, hconnector⟩,
    hviolates d hrecorded .classType rfl (by decide) hdiscard hconnector, hname, ?_⟩
  obtain ⟨front, behind, -, hnew⟩ :=
    hverbatim (Facts.ofTree "A.cs" ⟨Node.joinedName, false⟩) [] [] d (by decide) hname
  have hfound : d.namingViolation? "A.cs" =
      some ⟨"Stroke_Buffer", .classType, "A.cs", 1, .upperCamel⟩ := by decide
  rw [List.nil_append] at hnew
  rw [hnew]
  refine List.mem_append_left _ (List.mem_append_right _ ?_)
  show _ ∈ ((d.namingViolation? "A.cs").map _).toList
  rw [hfound]
  exact List.mem_singleton_self _

end CodeSmell
