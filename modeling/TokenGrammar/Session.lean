import TokenGrammar.Description
import TokenGrammar.Display

/-! A session keeps cursors under names and moves them about: reading single tokens, running
described grammars, and looking at what lies ahead. -/
namespace TokenGrammar

inductive Action (T : Type) where
  | consume
  | parse (d : Description T)
  | copy
  | restart
  | peek
  | remaining
  | source
  | parts
  | record

inductive Reply (T : Type) where
  | moved
  | outcome (o : Outcome T (Value T))
  | next (t : Option T)
  | tokens (ts : List T)
  | parts (source : List T) (position : Nat)
  | text (s : String)

namespace Action
variable {T : Type} [BEq T] [Weighted T] [TokenText T]

/-- The reply and the new cursor of something that reads. Without success the cursor stays. -/
def reading (x : Run T (Value T × Cursor T)) : Run T (Reply T × Option (Cursor T)) := do
  match ← x.attempt with
  | .ok r => pure (.outcome (.ok r.1), some r.2)
  | .error e => pure (.outcome (.error e), none)

/-- Do something with a cursor. The reply comes with the new cursor, if there is one. -/
def perform (R : Rules T (fun _ : String => Value T)) (budget : Nat) (c : Cursor T) :
    Action T → Run T (Reply T × Option (Cursor T))
  | consume => reading (Parser.reshape .token Parser.anyToken c)
  | parse d => reading (R.parse budget d.toGrammar c)
  | copy => pure (.moved, some c)
  | restart => pure (.moved, some c.restart)
  | peek => pure (.next c.peek?, none)
  | remaining => pure (.tokens c.remaining, none)
  | source => pure (.tokens c.source, none)
  | parts => pure (.parts c.source c.position, none)
  | record => pure (.text c.record, none)

end Action

/-- Named cursors, the latest first. -/
abbrev Session (T : Type) := List (String × Cursor T)

structure Step (T : Type) where
  action : Action T
  name : String
  target : String

structure Report (T : Type) where
  reply? : Option (Reply T)
  seen : Cursor T
  /-- The cursor that goes by the target's name afterwards. -/
  kept? : Option (Cursor T)
  events : List (Event T)

namespace Session
variable {T : Type} [BEq T] [Weighted T] [TokenText T]

/-- One step. There is none from a name without a cursor. -/
def step (R : Rules T (fun _ : String => Value T)) (budget : Nat) (s : Session T)
    (x : Step T) : Option (Session T × Report T) := do
  let c ← s.lookup x.name
  let done := x.action.perform R budget c
  let answer := done.outcome?.bind Except.toOption
  let s' : Session T := match answer.bind Prod.snd with
    | some c' => (x.target, c') :: s
    | none => s
  pure (s', ⟨answer.map Prod.fst, c, s'.lookup x.target, done.events⟩)

def steps (R : Rules T (fun _ : String => Value T)) (budget : Nat) :
    Session T → List (Step T) → Option (List (Report T))
  | _, [] => some []
  | s, x :: xs => do
    let (s', report) ← step R budget s x
    let later ← steps R budget s' xs
    pure (report :: later)

end Session
end TokenGrammar
