import TokenGrammar.Text.Printable

/-! Quoted text. Between two delimiters every character stands for itself, or for an escape
that starts with a backslash. -/
namespace TokenGrammar
namespace Text

def shortEscape? (delimiter c : Char) : Option Char :=
  if c = '\x00' then some '0'
  else if c = '\t' then some 't'
  else if c = '\r' then some 'r'
  else if c = '\n' then some 'n'
  else if c = '\\' ∨ c = delimiter then some c
  else none

/-- How a character is written between delimiters. An unprintable one is given by its code
point in hexadecimal digits, without leading zeros, between braces. -/
def escape (delimiter c : Char) : List Char :=
  match shortEscape? delimiter c with
  | some letter => ['\\', letter]
  | none =>
    if isPrintable c then [c]
    else '\\' :: 'u' :: '\x7b' :: (Nat.toDigits 16 c.toNat ++ ['\x7d'])

def quoted (delimiter : Char) (cs : List Char) : String :=
  String.ofList (delimiter :: (cs.flatMap (escape delimiter) ++ [delimiter]))

@[simp] theorem toList_quoted (d : Char) (cs : List Char) :
    (quoted d cs).toList = d :: (cs.flatMap (escape d) ++ [d]) := by
  simp [quoted]

end Text
end TokenGrammar
