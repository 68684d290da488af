import ReplicaRing.Bytes

/-!
The parts of TOML text below values: blanks, line ends, comments, and the four kinds of strings.
Every reader takes what is its own off the front of the text and returns the rest.
-/

namespace ReplicaRing.Toml

/-! ## Blanks and lines -/

def isBlank (c : Char) : Bool := c == ' ' || c == '\t'

def skipBlanks (text : List Char) : List Char := text.dropWhile isBlank

/-- The text after a line feed, with or without a carriage return before it. -/
def afterNewline? : List Char → Option (List Char)
  | '\n' :: rest => some rest
  | '\r' :: '\n' :: rest => some rest
  | _ => none

/-- What may stand in comments and in strings: tabs, and all but control characters. -/
def isPrintable (c : Char) : Bool := c == '\t' || (32 ≤ c.toNat && c.toNat != 127)

/-- The text after a comment, or the text itself if no comment starts it. -/
def skipComment : List Char → List Char
  | '#' :: rest => rest.dropWhile isPrintable
  | text => text

/-- The text of the next line, after blanks and a comment. A text that ends here ends the line
too. -/
def afterLine? (text : List Char) : Option (List Char) :=
  match skipComment (skipBlanks text) with
  | [] => some []
  | rest => afterNewline? rest

/-- Skips blanks, comments and line ends, as they may stand within an array; the fuel bounds the
number of lines. -/
def skipLines : Nat → List Char → List Char
  | 0, text => text
  | fuel + 1, text =>
    match afterNewline? (skipComment (skipBlanks text)) with
    | some rest => skipLines fuel rest
    | none => skipBlanks text

/-! ## Escapes -/

/-- The character of a number in hexadecimal digits; surrogates are none. -/
def scalar? (digits : List Char) : Option Char := do
  let n ← digits.foldlM (fun n c => (hexValue? c).map (n * 16 + ·)) 0
  guard (n < 0xd800 ∨ (0xdfff < n ∧ n < 0x110000))
  return Char.ofNat n

/-- The character that stands for what follows a backslash. -/
def escape? : List Char → Option (Char × List Char)
  | 'b' :: rest => some ('\x08', rest)
  | 't' :: rest => some ('\t', rest)
  | 'n' :: rest => some ('\n', rest)
  | 'f' :: rest => some ('\x0c', rest)
  | 'r' :: rest => some ('\r', rest)
  | '"' :: rest => some ('"', rest)
  | '\\' :: rest => some ('\\', rest)
  | 'u' :: a :: b :: c :: d :: rest => (scalar? [a, b, c, d]).map (·, rest)
  | 'U' :: a :: b :: c :: d :: e :: f :: g :: h :: rest =>
    (scalar? [a, b, c, d, e, f, g, h]).map (·, rest)
  | _ => none

/-! ## Strings -/

/-- The rest of a one-line string after its opening quote. The fuel bounds its length. -/
def basicBody : Nat → List Char → List Char → Option (String × List Char)
  | 0, _, _ => none
  | fuel + 1, done, text =>
    match text with
    | [] => none
    | '"' :: rest => some (String.ofList done.reverse, rest)
    | '\\' :: rest =>
      match escape? rest with
      | some (c, rest) => basicBody fuel (c :: done) rest
      | none => none
    | c :: rest => if isPrintable c then basicBody fuel (c :: done) rest else none

/-- The rest of a string of several lines. Three quotes end it, and up to two more before them
belong to it. A backslash at the end of a line removes the line end and all blanks and line ends
after it; `skipping` says that this is going on. -/
def multilineBody : Nat → Bool → List Char → List Char → Option (String × List Char)
  | 0, _, _, _ => none
  | fuel + 1, skipping, done, text =>
    match text with
    | [] => none
    | '"' :: '"' :: '"' :: '"' :: '"' :: rest =>
      some (String.ofList ('"' :: '"' :: done).reverse, rest)
    | '"' :: '"' :: '"' :: '"' :: rest => some (String.ofList ('"' :: done).reverse, rest)
    | '"' :: '"' :: '"' :: rest => some (String.ofList done.reverse, rest)
    | '\n' :: rest | '\r' :: '\n' :: rest =>
      multilineBody fuel skipping (if skipping then done else '\n' :: done) rest
    | '\\' :: rest =>
      if (afterNewline? (skipBlanks rest)).isSome then multilineBody fuel true done rest
      else
        match escape? rest with
        | some (c, rest) => multilineBody fuel false (c :: done) rest
        | none => none
    | c :: rest =>
      if skipping && isBlank c then multilineBody fuel true done rest
      else if isPrintable c then multilineBody fuel false (c :: done) rest
      else none

/-- The rest of a one-line literal string: nothing is escaped. -/
def literalBody (text : List Char) : Option (String × List Char) :=
  let inside (c : Char) := isPrintable c && c != '\''
  match text.dropWhile inside with
  | '\'' :: rest => some (String.ofList (text.takeWhile inside), rest)
  | _ => none

/-- The rest of a literal string of several lines. -/
def multilineLiteralBody : List Char → List Char → Option (String × List Char)
  | done, '\'' :: '\'' :: '\'' :: '\'' :: '\'' :: rest =>
    some (String.ofList ('\'' :: '\'' :: done).reverse, rest)
  | done, '\'' :: '\'' :: '\'' :: '\'' :: rest =>
    some (String.ofList ('\'' :: done).reverse, rest)
  | done, '\'' :: '\'' :: '\'' :: rest => some (String.ofList done.reverse, rest)
  | done, '\r' :: '\n' :: rest => multilineLiteralBody ('\n' :: done) rest
  | done, '\n' :: rest => multilineLiteralBody ('\n' :: done) rest
  | done, c :: rest => if isPrintable c then multilineLiteralBody (c :: done) rest else none
  | _, [] => none

/-- A line end right after the opening quotes is no part of the string. -/
def trimFirstLine (text : List Char) : List Char := (afterNewline? text).getD text

/-- Reads a string of any kind, if the text starts with a quote. -/
def string? : List Char → Option (String × List Char)
  | '"' :: '"' :: '"' :: rest => multilineBody (rest.length + 1) false [] (trimFirstLine rest)
  | '"' :: rest => basicBody (rest.length + 1) [] rest
  | '\'' :: '\'' :: '\'' :: rest => multilineLiteralBody [] (trimFirstLine rest)
  | '\'' :: rest => literalBody rest
  | _ => none

end ReplicaRing.Toml
