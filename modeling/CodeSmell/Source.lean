import CodeSmell.Facts.Walk
import CodeSmell.Path

/-!
# Source files

* `Language` : what kind of source a file extension stands for;
* `Grammar` : gives the syntax tree of a text;
* `Source` : a file's path and text, with its facts if it could be analyzed.
-/

namespace CodeSmell

/-- A language that can be analyzed. -/
inductive Language where
  | csharp
deriving DecidableEq, Repr, Inhabited

namespace Language

def label : Language → String
  | csharp => "csharp"

/-- The language of files with an extension, in letters of either case. -/
def ofExtension? (extension : String) : Option Language :=
  if extension.toList.map Char.toLower == ['c', 's'] then some csharp else none

def ofPath? (path : String) : Option Language :=
  (Path.extension? path).bind ofExtension?

end Language

/-- Gives the syntax tree of a text. -/
abbrev Grammar := String → Syntax.Tree

/-- A source file. -/
structure Source where
  path : String
  text : String
  /-- What the file says; nothing if it is of no known language or makes no sense. -/
  facts : Option Facts
deriving Repr, Inhabited

namespace Source

/-- What the tree of the file at `path` says, unless no sense could be made of the file. -/
def factsOf? (path : String) (tree : Syntax.Tree) : Option Facts :=
  if tree.isUnrecognizable then none else some (Facts.ofTree path tree)

def read (grammar : Grammar) (path text : String) : Source where
  path := path
  text := text
  facts := (Language.ofPath? path).bind fun _ => factsOf? path (grammar text)

end Source

end CodeSmell
