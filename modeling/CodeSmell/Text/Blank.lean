/-!
# White space

* `isBlank` : the characters with Unicode's `White_Space` property;
* `compact` : a text with every blank left out (`System . Linq` becomes `System.Linq`);
* `isBlankText` : a text of blanks only, the empty text included.
-/

namespace CodeSmell.Text

/-- The `White_Space` property of Unicode. -/
def isBlank (c : Char) : Bool :=
  let n := c.toNat
  (9 ≤ n && n ≤ 13) || n == 0x20 || n == 0x85 || n == 0xA0 || n == 0x1680 ||
    (0x2000 ≤ n && n ≤ 0x200A) || n == 0x2028 || n == 0x2029 || n == 0x202F ||
    n == 0x205F || n == 0x3000

def compact (s : String) : String :=
  String.ofList (s.toList.filter fun c => !isBlank c)

def isBlankText (s : String) : Bool :=
  s.toList.all isBlank

theorem toList_compact (s : String) :
    (compact s).toList = s.toList.filter fun c => !isBlank c := by
  simp [compact]

end CodeSmell.Text
