/-!
# Lexical categories

The vocabulary of the language has three parts: reserved words (`Keyword`), operators and
delimiters (`Symbol`), and the categories whose text differs from token to token. A fixed
word or symbol is known by its letters alone, so the look-ups below search the list of all of
them, and each look-up finds exactly what `letters` spells.
-/

namespace BlockScript

/-- Reserved words. A trailing underscore is not part of the word. -/
inductive Keyword
  | let_ | function | global | local_ | var | hardcode | for_ | with_ | while_ | in_ | to_ | as
  | return_ | if_ | elif | else_
  deriving DecidableEq, Repr, Inhabited

namespace Keyword

/-- Every reserved word. -/
def all : List Keyword :=
  [let_, function, global, local_, var, hardcode, for_, with_, while_, in_, to_, as,
    return_, if_, elif, else_]

/-- The word as it is written. -/
def letters : Keyword → List Char
  | let_ => ['l', 'e', 't']
  | function => ['f', 'u', 'n', 'c', 't', 'i', 'o', 'n']
  | global => ['g', 'l', 'o', 'b', 'a', 'l']
  | local_ => ['l', 'o', 'c', 'a', 'l']
  | var => ['v', 'a', 'r']
  | hardcode => ['h', 'a', 'r', 'd', 'c', 'o', 'd', 'e']
  | for_ => ['f', 'o', 'r']
  | with_ => ['w', 'i', 't', 'h']
  | while_ => ['w', 'h', 'i', 'l', 'e']
  | in_ => ['i', 'n']
  | to_ => ['t', 'o']
  | as => ['a', 's']
  | return_ => ['r', 'e', 't', 'u', 'r', 'n']
  | if_ => ['i', 'f']
  | elif => ['e', 'l', 'i', 'f']
  | else_ => ['e', 'l', 's', 'e']

/-- The category's name in token dumps. -/
def tag : Keyword → String
  | let_ => "Let"
  | function => "Function"
  | global => "Global"
  | local_ => "Local"
  | var => "Var"
  | hardcode => "Hardcode"
  | for_ => "For"
  | with_ => "With"
  | while_ => "While"
  | in_ => "In"
  | to_ => "To"
  | as => "As"
  | return_ => "Return"
  | if_ => "If"
  | elif => "Elif"
  | else_ => "Else"

/-- The reserved word that `word` is, letter for letter and case for case. -/
def ofLetters? (word : List Char) : Option Keyword := all.find? (·.letters == word)

/-- Reserved words that the grammar knows and cannot parse yet. -/
def isPending : Keyword → Bool
  | let_ => true
  | _ => false

theorem mem_all (keyword : Keyword) : keyword ∈ all := by
  cases keyword <;> decide

theorem ofLetters?_letters (keyword : Keyword) : ofLetters? keyword.letters = some keyword := by
  cases keyword <;> decide

theorem letters_of_ofLetters? {word : List Char} {keyword : Keyword}
    (known : ofLetters? word = some keyword) : keyword.letters = word := by
  simpa using List.find?_some known

end Keyword

/-- Operators and delimiters. -/
inductive Symbol
  | plus | minus | star | slash | percent
  | equals | equalsEquals | notEquals | lessThan | lessEquals | greaterThan | greaterEquals
  | andAnd | orOr
  | openParen | closeParen | openCurly | closeCurly | openBracket | closeBracket
  | semicolon | colon | comma
  deriving DecidableEq, Repr, Inhabited

namespace Symbol

/-- Every operator and delimiter. -/
def all : List Symbol :=
  [plus, minus, star, slash, percent,
    equals, equalsEquals, notEquals, lessThan, lessEquals, greaterThan, greaterEquals,
    andAnd, orOr,
    openParen, closeParen, openCurly, closeCurly, openBracket, closeBracket,
    semicolon, colon, comma]

/-- The symbol as it is written: one character or two. -/
def letters : Symbol → List Char
  | plus => ['+']
  | minus => ['-']
  | star => ['*']
  | slash => ['/']
  | percent => ['%']
  | equals => ['=']
  | equalsEquals => ['=', '=']
  | notEquals => ['!', '=']
  | lessThan => ['<']
  | lessEquals => ['<', '=']
  | greaterThan => ['>']
  | greaterEquals => ['>', '=']
  | andAnd => ['&', '&']
  | orOr => ['|', '|']
  | openParen => ['(']
  | closeParen => [')']
  | openCurly => ['{']
  | closeCurly => ['}']
  | openBracket => ['[']
  | closeBracket => [']']
  | semicolon => [';']
  | colon => [':']
  | comma => [',']

/-- The category's name in token dumps. -/
def tag : Symbol → String
  | plus => "Plus"
  | minus => "Minus"
  | star => "Star"
  | slash => "Slash"
  | percent => "Percent"
  | equals => "Equals"
  | equalsEquals => "EqualsEquals"
  | notEquals => "NotEquals"
  | lessThan => "LessThan"
  | lessEquals => "LessEquals"
  | greaterThan => "GreaterThan"
  | greaterEquals => "GreaterEquals"
  | andAnd => "AndAnd"
  | orOr => "OrOr"
  | openParen => "OpenParen"
  | closeParen => "CloseParen"
  | openCurly => "OpenCurly"
  | closeCurly => "CloseCurly"
  | openBracket => "OpenBracket"
  | closeBracket => "CloseBracket"
  | semicolon => "Semicolon"
  | colon => "Colon"
  | comma => "Comma"

/-- The symbol written with exactly these characters. -/
def ofLetters? (text : List Char) : Option Symbol := all.find? (·.letters == text)

/-- The symbol written as the one character `c`. -/
def single? (c : Char) : Option Symbol := ofLetters? [c]

/-- The symbol written as `first` and then `second`. -/
def pair? (first second : Char) : Option Symbol := ofLetters? [first, second]

theorem mem_all (symbol : Symbol) : symbol ∈ all := by
  cases symbol <;> decide

theorem ofLetters?_letters (symbol : Symbol) : ofLetters? symbol.letters = some symbol := by
  cases symbol <;> decide

theorem letters_of_ofLetters? {text : List Char} {symbol : Symbol}
    (known : ofLetters? text = some symbol) : symbol.letters = text := by
  simpa using List.find?_some known

end Symbol

/-- The lexical category of a token. -/
inductive Kind
  /-- A number, kept as the text it was written with. -/
  | number
  /-- A name that is no reserved word. -/
  | identifier
  /-- A text between two equal quotes. -/
  | text
  /-- An entity selector between `<` and `>`. -/
  | selector
  | keyword (keyword : Keyword)
  | symbol (symbol : Symbol)
  /-- The end of the input. -/
  | finish
  deriving DecidableEq, Repr, Inhabited

namespace Kind

instance : Coe Keyword Kind := ⟨keyword⟩

instance : Coe Symbol Kind := ⟨symbol⟩

/-- Every category. -/
def all : List Kind :=
  [number, identifier, text, selector] ++ Keyword.all.map keyword ++ Symbol.all.map symbol ++
    [finish]

/-- The fixed spelling of a reserved word or symbol. -/
def letters? : Kind → Option (List Char)
  | keyword word => some word.letters
  | symbol mark => some mark.letters
  | number | identifier | text | selector | finish => none

/-- The fixed spelling of a reserved word or symbol, as a string. -/
def spelling? (kind : Kind) : Option String := kind.letters?.map String.ofList

/-- Whether the category is a reserved word. -/
def isKeyword : Kind → Bool
  | keyword _ => true
  | _ => false

/-- Whether the category is a reserved word that cannot be parsed yet. -/
def isPending : Kind → Bool
  | keyword word => word.isPending
  | _ => false

/-- How messages call the category when it was expected and not found. -/
def describe : Kind → String
  | number => "number"
  | identifier => "identifier"
  | text => "string literal"
  | selector => "selector"
  | finish => "end of input"
  | keyword word => "'" ++ String.ofList word.letters ++ "'"
  | symbol mark => "'" ++ String.ofList mark.letters ++ "'"

/-- The category's name in token dumps. -/
def tag : Kind → String
  | number => "Number"
  | identifier => "Identifier"
  | text => "StringLiteral"
  | selector => "Selector"
  | finish => "Eof"
  | keyword word => word.tag
  | symbol mark => mark.tag

/-- The category that token dumps call `name`. -/
def ofTag? (name : String) : Option Kind := all.find? (·.tag == name)

theorem mem_all (kind : Kind) : kind ∈ all := by
  cases kind <;> simp [all, Keyword.mem_all, Symbol.mem_all]

end Kind

end BlockScript
