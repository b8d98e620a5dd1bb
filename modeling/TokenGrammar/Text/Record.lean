/-! Written forms of numbers, optional values and records of named fields. -/
namespace TokenGrammar
namespace Text

def decimal (n : Nat) : String := String.ofList (Nat.toDigits 10 n)

def signed : Int → String
  | .ofNat n => decimal n
  | .negSucc n => "-" ++ decimal (n + 1)

def ofOption : Option String → String
  | some s => "Some(" ++ s ++ ")"
  | none => "None"

def fields : List (String × String) → String
  | [] => ""
  | [(name, s)] => name ++ ": " ++ s
  | (name, s) :: rest => name ++ ": " ++ s ++ ", " ++ fields rest

def record (name : String) (fs : List (String × String)) : String :=
  name ++ " \x7b " ++ fields fs ++ " \x7d"

@[simp] theorem toList_decimal (n : Nat) : (decimal n).toList = Nat.toDigits 10 n := by
  simp [decimal]

theorem decimal_injective {m n : Nat} (h : decimal m = decimal n) : m = n := by
  have := congrArg (fun s => Nat.ofDigitChars 10 s.toList 0) h
  simpa using this

end Text
end TokenGrammar
