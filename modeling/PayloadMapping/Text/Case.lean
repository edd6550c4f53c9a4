import PayloadMapping.Text.CaseMap
import PayloadMapping.Text.Cased
import PayloadMapping.Text.Letter

set_option autoImplicit false

/-!
# Upper, lower and title case of texts

Upper case maps every character by itself. Lower case does so too, except that a capital sigma
at the end of a word becomes a final sigma. Title case puts the first letter of every run of
letters in upper case and the others in lower case.
-/

namespace PayloadMapping.Text

def upperList (cs : List Char) : List Char := cs.flatMap upperChar

def casedFollows (cs : List Char) : Bool :=
  match cs.dropWhile isCaseIgnorable with
  | c :: _ => isCased c
  | [] => false

/-- A sigma ends a word: there is a cased character before it and none after it. -/
def endsWord (before after : List Char) : Bool := casedFollows before && !casedFollows after

/-- The text in lower case, where `before` holds the characters before it in reverse. -/
def lowerFrom (before : List Char) : List Char → List Char
  | [] => []
  | c :: rest =>
    (if c = 'Σ' then [if endsWord before rest then 'ς' else 'σ'] else lowerChar c)
      ++ lowerFrom (c :: before) rest

def lowerList (cs : List Char) : List Char := lowerFrom [] cs

/-- The text in title case; `inWord` says that a letter came just before. -/
def titleFrom (inWord : Bool) : List Char → List Char
  | [] => []
  | c :: rest =>
    if isLetter c then (if inWord then lowerChar c else upperChar c) ++ titleFrom true rest
    else c :: titleFrom false rest

def upper (s : String) : String := String.ofList (upperList s.toList)

def lower (s : String) : String := String.ofList (lowerList s.toList)

def title (s : String) : String := String.ofList (titleFrom false s.toList)

end PayloadMapping.Text
