import Mathlib.Data.List.Lex

/-! The string operations of the source that its gates rely on: `str.strip`, `re.sub(r"[\s-]+", "_", _)`
    and `sorted(set(_))`, over lists of characters. -/

namespace Money.Text

/-- The characters for which `str.isspace` holds, which are those that `\s` matches. -/
def isSpace (c : Char) : Bool :=
  let n := c.toNat
  (9 ≤ n && n ≤ 13) || (28 ≤ n && n ≤ 32) || n == 0x85 || n == 0xA0 || n == 0x1680 ||
    (0x2000 ≤ n && n ≤ 0x200A) || n == 0x2028 || n == 0x2029 || n == 0x202F || n == 0x205F || n == 0x3000

def stripChars (cs : List Char) : List Char :=
  ((cs.dropWhile isSpace).reverse.dropWhile isSpace).reverse

def strip (value : String) : String := String.ofList (stripChars value.toList)

/-- Each maximal run of blanks and hyphens becomes one underscore; `inRun` tells that the last
    character belonged to a run. -/
def collapse (inRun : Bool) : List Char → List Char
  | [] => []
  | c :: cs =>
    if isSpace c || c == '-' then
      if inRun then collapse true cs else '_' :: collapse true cs
    else c :: collapse false cs

/-- `_activity`: normalize structured labels, not free-text guesses about a business. -/
def activity (casefold : String → String) (value : String) : String :=
  String.ofList (collapse false (casefold (strip value)).toList)

def before (a b : String) : Bool := decide (a.toList.map Char.toNat ≤ b.toList.map Char.toNat)

def insertSorted (a : String) : List String → List String
  | [] => [a]
  | b :: bs => if before a b then a :: b :: bs else b :: insertSorted a bs

def sortedSet (values : List String) : List String := values.eraseDups.foldr insertSorted []

end Money.Text
