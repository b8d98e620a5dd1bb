import TokenGrammar.Callback
import TokenGrammar.Grammar

/-! Grammars that can be written down. A description holds no functions, so it can be read
from a file; its meaning is a grammar over run-time values whose rules are named by texts. -/
namespace TokenGrammar

mutual

/-- A grammar in writing. -/
inductive Description (T : Type) where
  | anyToken
  | token (expected : T)
  | satisfy (accept : Predicate T)
  | succeed (v : Value T)
  | fail (e : Failure T)
  | map (f : Mapper T) (d : Description T)
  | filter (accept : Predicate T) (d : Description T)
  | chain (d : Description T) (next : Continuation T) (combine : Combiner)
  | seq (d e : Description T)
  | orElse (d e : Description T)
  | optional (d : Description T)
  | notFollowedBy (d : Description T)
  | endOfInput
  | lookAhead (d : Description T)
  | between (d e f : Description T)
  | enclosed (before : T) (d : Description T) (after : T)
  | repeated (b : Bounds) (d : Description T)
  | sepBy1 (item sep : Description T)
  | log (message : String) (d : Description T)
  | tap (label : String) (d : Description T)
  | shared (d : Description T)
  | rule (name : String)
  | twoTokens
  | position
  | peek
  | remaining
  /-- Leave the sequence and go on at the start of another one. -/
  | switchTo (ts : List T)

/-- How the next grammar is found from a value, in writing. -/
inductive Continuation (T : Type) where
  | always (d : Description T)
  /-- The token that ended the value, once more. -/
  | lastToken
  | succeed (f : Mapper T)
  /-- One grammar if the value ended in this token, and else another continuation. -/
  | onToken (t : T) (d : Description T) (otherwise : Continuation T)
  | times (d : Description T)
  | count (d : Description T)

end

instance {T : Type} : Inhabited (Description T) := ⟨.anyToken⟩
instance {T : Type} : Inhabited (Continuation T) := ⟨.lastToken⟩

abbrev ValueGrammar (T : Type) := Grammar T (fun _ : String => Value T) (Value T)

namespace Grammar
variable {T : Type}

/-- As many matches as the number says, or none if it is negative. -/
def timesOf (n : Int) (g : ValueGrammar T) : ValueGrammar T :=
  reshape .list (repeated (.exactly n.toNat) g)

def tokenValue (t : T) : ValueGrammar T := reshape .token (token t)

end Grammar

mutual

def Description.toGrammar {T : Type} [BEq T] [Weighted T] : Description T → ValueGrammar T
  | .anyToken => .reshape .token .anyToken
  | .token t => .tokenValue t
  | .satisfy accept => .reshape .token (.satisfy (fun t => accept.accepts (.token t)))
  | .succeed v => .succeed v
  | .fail e => .custom (fun _ => .error e)
  | .map f d => .map f.apply d.toGrammar
  | .filter accept d => .filter accept.accepts d.toGrammar
  | .chain d next combine => .chain d.toGrammar next.toGrammar combine.apply
  | .seq d e => .reshape .ofPair (.seq d.toGrammar e.toGrammar)
  | .orElse d e => .orElse d.toGrammar e.toGrammar
  | .optional d => .reshape .ofOption (.optional d.toGrammar)
  | .notFollowedBy d => .reshape (fun _ => .unit) (.notFollowedBy d.toGrammar)
  | .endOfInput => .reshape (fun _ => .unit) .endOfInput
  | .lookAhead d => .lookAhead d.toGrammar
  | .between d e f => .between d.toGrammar e.toGrammar f.toGrammar
  | .enclosed before d after => .enclosed before d.toGrammar after
  | .repeated b d => .reshape .list (.repeated b d.toGrammar)
  | .sepBy1 item sep => .reshape .list (.sepBy1 item.toGrammar sep.toGrammar)
  | .log message d => .log message d.toGrammar
  | .tap label d => .tap label d.toGrammar
  | .shared d => .shared d.toGrammar
  | .rule name => .rule name
  | .twoTokens => .reshape (fun r => .pair (.token r.1) (.token r.2)) (.seq .anyToken .anyToken)
  | .position => .custom (fun c => .ok (.int (Int64.ofNat c.position), c))
  | .peek => .custom (fun c => .ok (.ofOption (c.peek?.map .token), c))
  | .remaining => .custom (fun c => .ok (.ofTokens c.remaining, c))
  | .switchTo ts => .custom (fun _ => .ok (.unit, Cursor.start ts))

def Continuation.toGrammar {T : Type} [BEq T] [Weighted T] :
    Continuation T → Value T → ValueGrammar T
  | .always d, _ => d.toGrammar
  | .lastToken, v =>
    match v.lastToken? with
    | some t => .tokenValue t
    | none => .custom (fun _ => .error .rejected)
  | .succeed f, v => .succeed (f.apply v)
  | .onToken t d otherwise, v =>
    if v.lastToken?.any (t == ·) then d.toGrammar else otherwise.toGrammar v
  | .times d, v => .timesOf v.weight.toInt d.toGrammar
  | .count d, v => .timesOf v.length d.toGrammar

end

namespace Description
variable {T : Type}

def choice (d : Description T) (others : List (Description T)) : Description T :=
  others.foldl (fun a b => shared (orElse a (shared b))) (shared d)

/-- The rules with these bodies. A name that is not among them always fails. -/
def rules [BEq T] [Weighted T] (bodies : List (String × Description T)) :
    Rules T (fun _ : String => Value T) :=
  let grammars := bodies.map fun b => (b.1, b.2.toGrammar)
  { body := fun name => (grammars.lookup name).getD (.custom fun _ => .error .rejected)
    label := id }

end Description
end TokenGrammar
