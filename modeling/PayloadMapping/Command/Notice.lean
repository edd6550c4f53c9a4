set_option autoImplicit false

/-!
# Notices

What a command reports while it works. A notice is shown on terminals, so the characters that
terminals take for commands are spelled out in its text.
-/

namespace PayloadMapping.Command

inductive Notice where
  | usingMapping (path : String) (rules : Nat)
  | downgraded (input : String) (count : Nat)
  | transformed (input : String)
deriving DecidableEq

/-- The form of a character in a notice. Escape, bell, backspace, form feed, delete and the
controls above ASCII are spelled by their codes. -/
def noticeForm (c : Char) : List Char :=
  if c = '\x1b' then "\\x1b".toList
  else if c = '\x07' then "\\x07".toList
  else if c = '\x08' then "\\x08".toList
  else if c = '\x0c' then "\\x0c".toList
  else if c = '\x7f' then "\\x7f".toList
  else if 0x80 ≤ c.toNat ∧ c.toNat ≤ 0x9F then
    ['\\', 'u', '\x7b'] ++ Nat.toDigits 16 c.toNat ++ ['\x7d']
  else [c]

def Notice.wording : Notice → String
  | .usingMapping path rules =>
    "INFO: Using mapping " ++ path ++ " (" ++ toString rules ++ " rules)"
  | .downgraded input count =>
    "WARN: " ++ input ++ ": " ++ toString count ++ " field(s) downgraded to null"
  | .transformed input => "INFO: Transformed " ++ input

def Notice.text (notice : Notice) : String :=
  String.ofList (notice.wording.toList.flatMap noticeForm)

end PayloadMapping.Command
