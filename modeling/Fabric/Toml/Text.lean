import Fabric.Digit
/-!
The words of a TOML document: blanks, line ends, comments, quoted texts and keys. A reader takes
what it reads off the front of the text, or fails.
-/

namespace Fabric.Toml

abbrev Reader (α : Type) := List Char → Option (α × List Char)

def isBlank (c : Char) : Bool := c = ' ' || c = '\t'

def dropBlanks (cs : List Char) : List Char := cs.dropWhile isBlank

/-- All characters but the control characters, of which only the tabulator is plain. -/
def isPlain (c : Char) : Bool := c = '\t' || (0x20 ≤ c.toNat && c.toNat ≠ 0x7F)

/-- Takes off a line end, a line feed or the pair with a carriage return before it. -/
def newline? : List Char → Option (List Char)
  | '\n' :: r => some r
  | '\r' :: '\n' :: r => some r
  | _ => none

def dropComment : List Char → List Char
  | '#' :: r => r.dropWhile isPlain
  | cs => cs

/-- The end of a statement: blanks, perhaps a comment, and the end of the line or of the text. -/
def lineEnd? (cs : List Char) : Option (List Char) :=
  match dropComment (dropBlanks cs) with
  | [] => some []
  | cs => newline? cs

theorem length_dropWhile_le (p : Char → Bool) (cs : List Char) :
    (cs.dropWhile p).length ≤ cs.length :=
  (List.dropWhile_suffix p).sublist.length_le

/-- Drops blanks, line ends and comments. -/
def dropFiller (cs : List Char) : List Char :=
  match cs with
  | '\n' :: r => dropFiller r
  | '\r' :: '\n' :: r => dropFiller r
  | '#' :: r => dropFiller (r.dropWhile isPlain)
  | c :: r => if isBlank c then dropFiller r else c :: r
  | [] => []
termination_by cs.length
decreasing_by
  all_goals simp only [List.length_cons]
  all_goals first | omega | exact Nat.lt_succ_of_le (length_dropWhile_le _ _)

/-! ## Quoted texts -/

/-- The character with a hexadecimal number. Halves of a pair of code units are no characters. -/
def charOfHex? (cs : List Char) : Option Char :=
  if cs.all isHexDigit && (hexValue cs).isValidChar then some (Char.ofNat (hexValue cs))
  else none

/-- The character that a backslash and one letter stand for. -/
def escaped? : Char → Option Char
  | 'b' => some '\x08'
  | 'f' => some '\x0c'
  | 'n' => some '\n'
  | 'r' => some '\r'
  | 't' => some '\t'
  | '"' => some '"'
  | '\\' => some '\\'
  | _ => none

/-- The rest of a text in double quotes, after the opening one. -/
def basicText : Reader (List Char)
  | [] => none
  | '"' :: r => some ([], r)
  | '\\' :: 'u' :: a :: b :: c :: d :: r => do
    let x ← charOfHex? [a, b, c, d]
    let (s, r) ← basicText r
    some (x :: s, r)
  | '\\' :: 'U' :: a :: b :: c :: d :: e :: f :: g :: h :: r => do
    let x ← charOfHex? [a, b, c, d, e, f, g, h]
    let (s, r) ← basicText r
    some (x :: s, r)
  | '\\' :: e :: r => do
    let x ← escaped? e
    let (s, r) ← basicText r
    some (x :: s, r)
  | c :: r => do
    guard (isPlain c && c ≠ '\\')
    let (s, r) ← basicText r
    some (c :: s, r)

/-- The rest of a text in single quotes, after the opening one. -/
def literalText : Reader (List Char)
  | [] => none
  | '\'' :: r => some ([], r)
  | c :: r => do
    guard (isPlain c)
    let (s, r) ← literalText r
    some (c :: s, r)

/-- Drops blanks and line ends. -/
def dropBlankLines : List Char → List Char
  | '\r' :: '\n' :: r => dropBlankLines r
  | c :: r => if isBlank c || c = '\n' then dropBlankLines r else c :: r
  | [] => []

theorem length_dropBlankLines_le (cs : List Char) : (dropBlankLines cs).length ≤ cs.length := by
  fun_induction dropBlankLines cs with
  | case1 r ih => simp; omega
  | case2 c r _ _ ih => simp; omega
  | case3 => simp
  | case4 => simp

/-- A backslash at the end of a line joins it to the next text. -/
def joinLines? (cs : List Char) : Option { r : List Char // r.length ≤ cs.length } :=
  match h : dropBlanks cs with
  | '\n' :: r => some ⟨dropBlankLines r, by
      have h1 := length_dropBlankLines_le r
      have h2 : ('\n' :: r).length ≤ cs.length := h ▸ length_dropWhile_le _ _
      simp at h2; omega⟩
  | '\r' :: '\n' :: r => some ⟨dropBlankLines r, by
      have h1 := length_dropBlankLines_le r
      have h2 : ('\r' :: '\n' :: r).length ≤ cs.length := h ▸ length_dropWhile_le _ _
      simp at h2; omega⟩
  | _ => none

/-- The rest of a text in triple double quotes. Up to two quotes may stand before the closing
ones. A line end is a line feed, however it is written. -/
def basicLines (cs : List Char) : Option (List Char × List Char) :=
  match cs with
  | [] => none
  | '"' :: '"' :: '"' :: '"' :: '"' :: r => some (['"', '"'], r)
  | '"' :: '"' :: '"' :: '"' :: r => some (['"'], r)
  | '"' :: '"' :: '"' :: r => some ([], r)
  | '\r' :: '\n' :: r => do
    let (s, r) ← basicLines r
    some ('\n' :: s, r)
  | '\\' :: 'u' :: a :: b :: c :: d :: r => do
    let x ← charOfHex? [a, b, c, d]
    let (s, r) ← basicLines r
    some (x :: s, r)
  | '\\' :: 'U' :: a :: b :: c :: d :: e :: f :: g :: h :: r => do
    let x ← charOfHex? [a, b, c, d, e, f, g, h]
    let (s, r) ← basicLines r
    some (x :: s, r)
  | '\\' :: e :: r =>
    match escaped? e with
    | some x => do
      let (s, r) ← basicLines r
      some (x :: s, r)
    | none =>
      match joinLines? (e :: r) with
      | some ⟨r, _⟩ => basicLines r
      | none => none
  | c :: r =>
    if (isPlain c || c = '\n') && c ≠ '\\' then do
      let (s, r) ← basicLines r
      some (c :: s, r)
    else none
termination_by cs.length
decreasing_by
  all_goals simp only [List.length_cons]
  all_goals first | omega | exact Nat.lt_succ_of_le ‹_›

/-- The rest of a text in triple single quotes. -/
def literalLines : Reader (List Char)
  | [] => none
  | '\'' :: '\'' :: '\'' :: '\'' :: '\'' :: r => some (['\'', '\''], r)
  | '\'' :: '\'' :: '\'' :: '\'' :: r => some (['\''], r)
  | '\'' :: '\'' :: '\'' :: r => some ([], r)
  | '\r' :: '\n' :: r => do
    let (s, r) ← literalLines r
    some ('\n' :: s, r)
  | c :: r => do
    guard (isPlain c || c = '\n')
    let (s, r) ← literalLines r
    some (c :: s, r)

/-- A line end directly after the opening quotes is not part of the text. -/
def dropFirstNewline (cs : List Char) : List Char := (newline? cs).getD cs

def quoted : Reader String
  | '"' :: '"' :: '"' :: r => (basicLines (dropFirstNewline r)).map fun (s, r) => (.ofList s, r)
  | '"' :: r => (basicText r).map fun (s, r) => (.ofList s, r)
  | '\'' :: '\'' :: '\'' :: r =>
    (literalLines (dropFirstNewline r)).map fun (s, r) => (.ofList s, r)
  | '\'' :: r => (literalText r).map fun (s, r) => (.ofList s, r)
  | _ => none

/-! ## Keys -/

def isKeyChar (c : Char) : Bool := c.isAlphanum || c = '_' || c = '-'

/-- One part of a key, bare or in quotes on one line. -/
def keyPart : Reader String
  | '"' :: r => (basicText r).map fun (s, r) => (.ofList s, r)
  | '\'' :: r => (literalText r).map fun (s, r) => (.ofList s, r)
  | cs =>
    let name := cs.takeWhile isKeyChar
    if name.isEmpty then none else some (.ofList name, cs.drop name.length)

/-- Parts between dots, with blanks around each; at most `fuel` of them. -/
def keyParts : Nat → Reader (List String)
  | 0, _ => none
  | fuel + 1, cs => do
    let (part, r) ← keyPart (dropBlanks cs)
    match dropBlanks r with
    | '.' :: r =>
      let (parts, r) ← keyParts fuel r
      some (part :: parts, r)
    | r => some ([part], r)

/-- A key has fewer than eighty parts. -/
def key : Reader (List String) := keyParts 79

end Fabric.Toml
