import Mathlib.Data.List.Infix
import TokenGrammar.Display

/-! What is written about a failure tells which failure it was. A quoted text shows where it ends,
as its delimiter is escaped inside, and so does a number that no digit follows. Tokens and positions
written that way can be cut out of a message one after the other, whatever words they hold, and the
words in front of them tell the kinds of failures apart. -/
namespace TokenGrammar

namespace Text

section Digits

def hexDigit (c : Char) : Nat :=
  if c.isDigit then c.toNat - '0'.toNat else c.toNat - 'a'.toNat + 10

def hexValue (cs : List Char) : Nat := cs.foldl (fun n c => 16 * n + hexDigit c) 0

theorem hexDigit_digitChar : ∀ n < 16, hexDigit n.digitChar = n := by decide

theorem digitChar_ne_brace : ∀ n < 16, n.digitChar ≠ '\x7d' := by decide

/-- Hexadecimal digits are a single one, or one behind those of a smaller number. -/
theorem hexDigits_induction {motive : Nat → List Char → Prop}
    (single : ∀ d < 16, motive d [d.digitChar])
    (snoc : ∀ n, ∀ d < 16, motive n (Nat.toDigits 16 n) →
      motive (16 * n + d) (Nat.toDigits 16 n ++ [d.digitChar])) (n : Nat) :
    motive n (Nat.toDigits 16 n) := by
  induction n using Nat.strongRecOn with
  | ind n ih =>
    by_cases hn : n < 16
    · rw [Nat.toDigits_of_lt_base hn]
      exact single n hn
    · have hlater := snoc (n / 16) (n % 16) (Nat.mod_lt n (by decide)) (ih (n / 16) (by omega))
      rw [Nat.div_add_mod] at hlater
      rwa [Nat.toDigits_of_base_le (by decide) (Nat.le_of_not_lt hn)]

theorem hexValue_toDigits (n : Nat) : hexValue (Nat.toDigits 16 n) = n := by
  refine hexDigits_induction (motive := fun n cs => hexValue cs = n) ?_ ?_ n
  · intro d hd
    simp [hexValue, hexDigit_digitChar d hd]
  · intro n d hd ih
    rw [hexValue] at ih
    simp [hexValue, ih, hexDigit_digitChar d hd]

theorem ne_brace_of_mem_toDigits (n : Nat) : ∀ c ∈ Nat.toDigits 16 n, c ≠ '\x7d' := by
  refine hexDigits_induction (motive := fun _ cs => ∀ c ∈ cs, c ≠ '\x7d') ?_ ?_ n
  · intro d hd c hc
    rw [List.mem_singleton.mp hc]
    exact digitChar_ne_brace d hd
  · intro n d hd ih c hc
    rcases List.mem_append.mp hc with hfirst | hlast
    · exact ih c hfirst
    · rw [List.mem_singleton.mp hlast]
      exact digitChar_ne_brace d hd

end Digits

section Escapes

/-- Neither the backslash nor the letter of a short escape, so that a text can stand between two of
them. -/
def IsDelimiter (d : Char) : Prop := d ∉ ['\\', '0', 't', 'r', 'n', 'u']
  deriving Decidable

def ofLetter (letter : Char) : Char :=
  if letter = '0' then '\x00'
  else if letter = 't' then '\t'
  else if letter = 'r' then '\r'
  else if letter = 'n' then '\n'
  else letter

/-- Read one character, escaped or not, and leave the rest. -/
def unescape : List Char → Char × List Char
  | '\\' :: 'u' :: rest =>
    let code := rest.tail
    (Char.ofNat (hexValue (code.takeWhile (· != '\x7d'))), (code.dropWhile (· != '\x7d')).tail)
  | '\\' :: letter :: rest => (ofLetter letter, rest)
  | c :: rest => (c, rest)
  | [] => (default, [])

theorem unescape_letter {letter : Char} (h : letter ≠ 'u') (s : List Char) :
    unescape ('\\' :: letter :: s) = (ofLetter letter, s) := by
  rw [unescape.eq_2]
  simpa using h

theorem unescape_plain {c : Char} (h : c ≠ '\\') (s : List Char) : unescape (c :: s) = (c, s) := by
  rw [unescape.eq_3]
  · simp [h]
  · simp [h]

theorem unescape_code (n : Nat) (s : List Char) :
    unescape ('\\' :: 'u' :: '\x7b' :: (Nat.toDigits 16 n ++ '\x7d' :: s)) = (Char.ofNat n, s) := by
  have hdigits : ∀ c ∈ Nat.toDigits 16 n, (c != '\x7d') = true := by
    intro c hc
    simpa using ne_brace_of_mem_toDigits n c hc
  rw [unescape.eq_1, List.tail_cons]
  simp [List.takeWhile_append_of_pos hdigits, List.dropWhile_append_of_pos hdigits,
    hexValue_toDigits]

variable {d c : Char}

theorem ofLetter_of_shortEscape? (hd : IsDelimiter d) {letter : Char}
    (h : shortEscape? d c = some letter) : letter ≠ 'u' ∧ ofLetter letter = c := by
  unfold shortEscape? at h
  split_ifs at h with hnull htab hreturn hline hself
  · cases h
    exact ⟨by decide, hnull.symm⟩
  · cases h
    exact ⟨by decide, htab.symm⟩
  · cases h
    exact ⟨by decide, hreturn.symm⟩
  · cases h
    exact ⟨by decide, hline.symm⟩
  · cases h
    rcases hself with rfl | rfl
    · decide
    · simp only [IsDelimiter, List.mem_cons, not_or] at hd
      simp [ofLetter, hd]

theorem ne_of_shortEscape? (h : shortEscape? d c = none) : c ≠ '\\' ∧ c ≠ d := by
  unfold shortEscape? at h
  split_ifs at h with hnull htab hreturn hline hself
  exact not_or.mp hself

/-- However a character is written, reading it gives the character back, and what follows. -/
theorem unescape_escape (hd : IsDelimiter d) (c : Char) (s : List Char) :
    unescape (escape d c ++ s) = (c, s) := by
  unfold escape
  cases hshort : shortEscape? d c with
  | some letter =>
    obtain ⟨hletter, hc⟩ := ofLetter_of_shortEscape? hd hshort
    exact (unescape_letter hletter s).trans (by rw [hc])
  | none =>
    obtain ⟨hc, -⟩ := ne_of_shortEscape? hshort
    cases hprint : isPrintable c with
    | true => exact unescape_plain hc s
    | false =>
      have hcode := unescape_code c.toNat s
      rw [Char.ofNat_toNat] at hcode
      simpa using hcode

theorem escape_append_ne (hd : IsDelimiter d) (c : Char) (s t : List Char) :
    escape d c ++ s ≠ d :: t := by
  have hbackslash : '\\' ≠ d := by
    rintro rfl
    exact hd (by decide)
  unfold escape
  cases hshort : shortEscape? d c with
  | some letter => simp [hbackslash]
  | none =>
    obtain ⟨-, hc⟩ := ne_of_shortEscape? hshort
    cases hprint : isPrintable c with
    | true => simp [hc]
    | false => simp [hbackslash]

/-- The delimiter behind a text shows where it ends. -/
theorem flatMap_escape_inj (hd : IsDelimiter d) {as bs s t : List Char}
    (h : as.flatMap (escape d) ++ d :: s = bs.flatMap (escape d) ++ d :: t) : as = bs ∧ s = t := by
  induction as generalizing bs with
  | nil =>
    cases bs with
    | nil => simpa using h
    | cons b bs =>
      rw [List.flatMap_cons, List.append_assoc] at h
      exact absurd h.symm (escape_append_ne hd b _ s)
  | cons a as ih =>
    rw [List.flatMap_cons, List.append_assoc] at h
    cases bs with
    | nil => exact absurd h (escape_append_ne hd a _ t)
    | cons b bs =>
      rw [List.flatMap_cons, List.append_assoc] at h
      have hread := congrArg unescape h
      rw [unescape_escape hd, unescape_escape hd, Prod.mk.injEq] at hread
      obtain ⟨rfl, hlater⟩ := hread
      obtain ⟨rfl, rfl⟩ := ih hlater
      exact ⟨rfl, rfl⟩

end Escapes

section Delimited
variable {α β : Type} {w : α → String}

def Breaks (s : String) : Prop := (s.toList.head?.any fun c => !c.isDigit) = true
  deriving Decidable

theorem Breaks.append {u : String} (h : Breaks u) (s : String) : Breaks (u ++ s) := by
  unfold Breaks at h ⊢
  rw [String.toList_append]
  cases hu : u.toList with
  | nil => simp [hu] at h
  | cons c cs => simpa [hu] using h

theorem Breaks.takeWhile_isDigit {s : String} (h : Breaks s) :
    s.toList.takeWhile Char.isDigit = [] := by
  unfold Breaks at h
  cases hs : s.toList with
  | nil => simp
  | cons c cs =>
    rw [hs] at h
    have hc : ¬c.isDigit = true := by simpa using h
    rw [List.takeWhile_cons_of_neg hc]

/-- What is written shows where it ends and what it stands for, if no digit follows it. -/
def Delimited (w : α → String) : Prop :=
  ∀ ⦃a b s t⦄, Breaks s → Breaks t → w a ++ s = w b ++ t → a = b ∧ s = t

theorem Delimited.comp {f : β → α} (hw : Delimited w) (hf : Function.Injective f) :
    Delimited fun b => w (f b) := by
  intro a b s t hs ht h
  obtain ⟨heq, hrest⟩ := hw hs ht h
  exact ⟨hf heq, hrest⟩

theorem delimited_quoted {d : Char} (hd : IsDelimiter d) : Delimited (quoted d) := by
  intro as bs s t _ _ h
  have hchars := congrArg String.toList h
  simp only [String.toList_append, toList_quoted, List.cons_append, List.append_assoc,
    List.nil_append, List.cons.injEq, true_and] at hchars
  obtain ⟨heq, hrest⟩ := flatMap_escape_inj hd hchars
  exact ⟨heq, String.toList_inj.mp hrest⟩

theorem takeWhile_decimal_append {s : String} (hs : Breaks s) (n : Nat) :
    (decimal n ++ s).toList.takeWhile Char.isDigit = (decimal n).toList := by
  have hdigits : ∀ c ∈ Nat.toDigits 10 n, c.isDigit = true := fun c hc =>
    Nat.isDigit_of_mem_toDigits (by decide) (by decide) hc
  rw [String.toList_append, toList_decimal, List.takeWhile_append_of_pos hdigits,
    hs.takeWhile_isDigit, List.append_nil]

theorem delimited_decimal : Delimited decimal := by
  intro m n s t hs ht h
  have hdigits : decimal m = decimal n := by
    rw [← String.toList_inj, ← takeWhile_decimal_append hs, ← takeWhile_decimal_append ht, h]
  rw [hdigits, String.append_right_inj] at h
  exact ⟨decimal_injective hdigits, h⟩

theorem not_breaks_decimal_append (n : Nat) (s : String) : ¬Breaks (decimal n ++ s) := by
  unfold Breaks
  rw [String.toList_append, toList_decimal]
  cases hn : Nat.toDigits 10 n with
  | nil => exact absurd hn Nat.toDigits_ne_nil
  | cons c cs =>
    have hc : c.isDigit = true :=
      Nat.isDigit_of_mem_toDigits (by decide) (by decide) (hn ▸ List.mem_cons_self)
    simp [hc]

theorem delimited_signed : Delimited signed := by
  have hminus (n : Nat) (s : String) : Breaks ("-" ++ decimal (n + 1) ++ s) := by
    rw [String.append_assoc]
    exact Breaks.append (by decide) _
  intro m n s t hs ht h
  cases m with
  | ofNat m =>
    cases n with
    | ofNat n =>
      obtain ⟨rfl, hrest⟩ := delimited_decimal hs ht h
      exact ⟨rfl, hrest⟩
    | negSucc n =>
      have hbreaks := hminus n t
      rw [show "-" ++ decimal (n + 1) ++ t = decimal m ++ s from h.symm] at hbreaks
      exact absurd hbreaks (not_breaks_decimal_append m s)
  | negSucc m =>
    cases n with
    | ofNat n =>
      have hbreaks := hminus m s
      rw [show "-" ++ decimal (m + 1) ++ s = decimal n ++ t from h] at hbreaks
      exact absurd hbreaks (not_breaks_decimal_append n t)
    | negSucc n =>
      simp only [signed, String.append_assoc, String.append_right_inj] at h
      obtain ⟨heq, hrest⟩ := delimited_decimal hs ht h
      exact ⟨by rw [Nat.succ.inj heq], hrest⟩

end Delimited
end Text

section Tokens
open Text TokenText

theorem delimited_string : Delimited (text : String → String) :=
  (delimited_quoted (by decide)).comp fun _ _ => String.toList_inj.mp

theorem delimited_char : Delimited (text : Char → String) :=
  (delimited_quoted (by decide)).comp fun _ _ => List.singleton_inj.mp

theorem delimited_int64 : Delimited (text : Int64 → String) :=
  delimited_signed.comp fun _ _ => Int64.toInt_inj.mp

theorem delimited_lexeme : Delimited (text : Lexeme → String) := by
  rintro ⟨kind, text⟩ ⟨kind', text'⟩ s t _ _ h
  have hseparator (u : String) : Breaks (", text: " ++ u) := Breaks.append (by decide) u
  have hend (u : String) : Breaks (" \x7d" ++ u) := Breaks.append (by decide) u
  simp only [TokenText.text, record, fields, String.append_assoc, String.append_right_inj] at h
  obtain ⟨hkind, hlater⟩ := delimited_string (hseparator _) (hseparator _) h
  rw [String.append_right_inj] at hlater
  obtain ⟨htext, hrest⟩ := delimited_string (hend _) (hend _) hlater
  rw [String.append_right_inj] at hrest
  exact ⟨by rw [hkind, htext], hrest⟩

end Tokens

/-- The words around the fields of failures: those that the text of each kind of failure starts
with, those between its fields, and those behind the last one. -/
structure Wording where
  expected : String
  found : String
  foundAt : String
  ended : String
  rejected : String
  matched : String
  unconsumed : String
  unconsumedAt : String
  close : String

namespace Wording
open TokenText (text)
variable {T : Type} [TokenText T]

def write (w : Wording) : Failure T → String
  | .unexpectedToken expected actual p =>
    w.expected ++ (text expected ++ (w.found ++ (text actual ++ (w.foundAt ++
      (Text.decimal p ++ w.close)))))
  | .unexpectedEnd p => w.ended ++ (Text.decimal p ++ w.close)
  | .rejected => w.rejected
  | .unexpectedMatch p => w.matched ++ (Text.decimal p ++ w.close)
  | .trailing actual p =>
    w.unconsumed ++ (text actual ++ (w.unconsumedAt ++ (Text.decimal p ++ w.close)))

def openings (w : Wording) : List String :=
  [w.expected, w.ended, w.rejected, w.matched, w.unconsumed]

/-- The words in front tell the kinds of failures apart, and the words behind a token do not
continue a number. -/
structure IsClear (w : Wording) : Prop where
  nodup : w.openings.Nodup
  eq_of_isPrefix : ∀ u ∈ w.openings, ∀ v ∈ w.openings, u.toList <+: v.toList → u = v
  found : Text.Breaks w.found
  foundAt : Text.Breaks w.foundAt
  unconsumedAt : Text.Breaks w.unconsumedAt

theorem exists_opening (w : Wording) (e : Failure T) :
    ∃ u, w.openings[e.ctorIdx]? = some u ∧ u.toList <+: (w.write e).toList := by
  cases e with
  | unexpectedToken | unexpectedEnd | unexpectedMatch | trailing =>
    exact ⟨_, rfl, _, String.toList_append.symm⟩
  | rejected => exact ⟨_, rfl, List.prefix_rfl⟩

variable {w : Wording} {e f : Failure T}

theorem IsClear.ctorIdx_eq (hw : w.IsClear) (h : w.write e = w.write f) :
    e.ctorIdx = f.ctorIdx := by
  obtain ⟨u, hu, hopen⟩ := w.exists_opening e
  obtain ⟨v, hv, hopen'⟩ := w.exists_opening f
  have hsame : u = v := by
    rw [h] at hopen
    rcases List.prefix_or_prefix_of_prefix hopen hopen' with huv | hvu
    · exact hw.eq_of_isPrefix u (List.mem_of_getElem? hu) v (List.mem_of_getElem? hv) huv
    · exact (hw.eq_of_isPrefix v (List.mem_of_getElem? hv) u (List.mem_of_getElem? hu) hvu).symm
  have hlt : e.ctorIdx < w.openings.length := (List.getElem?_eq_some_iff.mp hu).1
  exact (List.getElem?_inj hlt hw.nodup).mp (by rw [hu, hv, hsame])

theorem IsClear.write_injective (hT : Text.Delimited (text : T → String)) (hw : w.IsClear) :
    Function.Injective (w.write : Failure T → String) := by
  intro e f h
  have hkind : e.ctorIdx = f.ctorIdx := hw.ctorIdx_eq h
  cases e with
  | unexpectedToken expected actual p =>
    cases f with
    | unexpectedToken expected' actual' p' =>
      simp only [write, String.append_right_inj] at h
      obtain ⟨hexpected, h⟩ := hT (hw.found.append _) (hw.found.append _) h
      rw [String.append_right_inj] at h
      obtain ⟨hactual, h⟩ := hT (hw.foundAt.append _) (hw.foundAt.append _) h
      rw [String.append_right_inj, String.append_left_inj] at h
      rw [hexpected, hactual, Text.decimal_injective h]
    | unexpectedEnd | rejected | unexpectedMatch | trailing => cases hkind
  | unexpectedEnd p =>
    cases f with
    | unexpectedEnd p' =>
      simp only [write, String.append_right_inj, String.append_left_inj] at h
      rw [Text.decimal_injective h]
    | unexpectedToken | rejected | unexpectedMatch | trailing => cases hkind
  | rejected =>
    cases f with
    | rejected => rfl
    | unexpectedToken | unexpectedEnd | unexpectedMatch | trailing => cases hkind
  | unexpectedMatch p =>
    cases f with
    | unexpectedMatch p' =>
      simp only [write, String.append_right_inj, String.append_left_inj] at h
      rw [Text.decimal_injective h]
    | unexpectedToken | unexpectedEnd | rejected | trailing => cases hkind
  | trailing actual p =>
    cases f with
    | trailing actual' p' =>
      simp only [write, String.append_right_inj] at h
      obtain ⟨hactual, h⟩ := hT (hw.unconsumedAt.append _) (hw.unconsumedAt.append _) h
      rw [String.append_right_inj, String.append_left_inj] at h
      rw [hactual, Text.decimal_injective h]
    | unexpectedToken | unexpectedEnd | rejected | unexpectedMatch => cases hkind

def message : Wording where
  expected := "expected "
  found := ", found "
  foundAt := " at position "
  ended := "unexpected end of input at position "
  rejected := "assertion failed"
  matched := "unexpected match at position "
  unconsumed := "unconsumed token "
  unconsumedAt := " at position "
  close := ""

def record : Wording where
  expected := "UnexpectedToken" ++ (" \x7b " ++ ("expected" ++ ": "))
  found := ", " ++ ("actual" ++ ": ")
  foundAt := ", " ++ ("position" ++ ": ")
  ended := "UnexpectedEndOfInput" ++ (" \x7b " ++ ("position" ++ ": "))
  rejected := "AssertionFailed"
  matched := "UnexpectedMatch" ++ (" \x7b " ++ ("position" ++ ": "))
  unconsumed := "TrailingInput" ++ (" \x7b " ++ ("actual" ++ ": "))
  unconsumedAt := ", " ++ ("position" ++ ": ")
  close := " \x7d"

theorem isClear_message : message.IsClear :=
  ⟨by decide, by decide, by decide, by decide, by decide⟩

theorem isClear_record : record.IsClear :=
  ⟨by decide, by decide, by decide, by decide, by decide⟩

theorem write_message (e : Failure T) : message.write e = e.message := by
  unfold Failure.message
  cases e with
  | unexpectedToken | unexpectedEnd | rejected | unexpectedMatch | trailing =>
    simp only [write, message, String.append_assoc, String.append_empty]

theorem write_record (e : Failure T) : record.write e = e.record := by
  unfold Failure.record
  cases e with
  | unexpectedToken | unexpectedEnd | rejected | unexpectedMatch | trailing =>
    simp only [write, record, Text.record, Text.fields, String.append_assoc]

end Wording

namespace Failure
open TokenText (text)
variable {T : Type} [TokenText T]

theorem message_injective (hT : Text.Delimited (text : T → String)) :
    Function.Injective (message : Failure T → String) := by
  intro e f h
  rw [← Wording.write_message, ← Wording.write_message] at h
  exact Wording.isClear_message.write_injective hT h

theorem record_injective (hT : Text.Delimited (text : T → String)) :
    Function.Injective (record : Failure T → String) := by
  intro e f h
  rw [← Wording.write_record, ← Wording.write_record] at h
  exact Wording.isClear_record.write_injective hT h

/-- Over strings, characters, integers and lexemes the message alone determines the failure, with
its tokens in full, and so does the record of its fields. -/
theorem wordings_unambiguous :
    (Function.Injective (message : Failure String → String) ∧
      Function.Injective (record : Failure String → String)) ∧
    (Function.Injective (message : Failure Char → String) ∧
      Function.Injective (record : Failure Char → String)) ∧
    (Function.Injective (message : Failure Int64 → String) ∧
      Function.Injective (record : Failure Int64 → String)) ∧
    (Function.Injective (message : Failure Lexeme → String) ∧
      Function.Injective (record : Failure Lexeme → String)) :=
  ⟨⟨message_injective delimited_string, record_injective delimited_string⟩,
    ⟨message_injective delimited_char, record_injective delimited_char⟩,
    ⟨message_injective delimited_int64, record_injective delimited_int64⟩,
    message_injective delimited_lexeme, record_injective delimited_lexeme⟩

/-- A token that speaks of a position is told from the position. -/
example : (trailing "\" at position 3" 4).message =
    "unconsumed token \"\\\" at position 3\" at position 4" := by decide

end Failure
end TokenGrammar
